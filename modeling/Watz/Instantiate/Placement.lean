import Mathlib.Algebra.Group.Nat.Defs
import Mathlib.Algebra.Ring.Int.Defs
import Mathlib.Order.CompletePartialOrder
import Mathlib.Order.Interval.Set.Disjoint
import Watz.Instantiate

namespace Watz.Instantiate.Placement

open Interpreter

-- What `memory_instantiate` computes, over the integers.
structure Exact where
  numBytesPerPage : Int
  initPageCount : Int
  maxPageCount : Int
  heapOffset : Int
  heapSize : Int
  heapBase : Option Int
  deriving DecidableEq

namespace Exact

def bytesToPageEnd (address numBytesPerPage : Int) : Int :=
  numBytesPerPage -
    if address % numBytesPerPage = 0 then numBytesPerPage else address % numBytesPerPage

-- The pages in front of the rest of the memory, and the base behind the heap. A base that is
-- closer than 1 KiB to the end of its page is moved, and gets another page.
def incPageCount (auxHeapBase numBytesPerPage heapSize : Int) : Int :=
  (heapSize - bytesToPageEnd auxHeapBase numBytesPerPage + numBytesPerPage - 1) / numBytesPerPage

def tight (auxHeapBase numBytesPerPage heapSize : Int) : Prop :=
  bytesToPageEnd (auxHeapBase + heapSize) numBytesPerPage < 1024

instance (auxHeapBase numBytesPerPage heapSize : Int) :
    Decidable (tight auxHeapBase numBytesPerPage heapSize) := Int.decLt _ _

-- More pages, of which the maximum is cut at that of a 32-bit memory.
def grown (numBytesPerPage initPageCount maxPageCount inc heapOffset heapSize : Int)
    (heapBase : Option Int) : Exact where
  numBytesPerPage := numBytesPerPage
  initPageCount := initPageCount + inc
  maxPageCount := min (maxPageCount + inc) 65536
  heapOffset := heapOffset
  heapSize := heapSize
  heapBase := heapBase

def beforeHeapBase (auxHeapBase numBytesPerPage initPageCount maxPageCount heapSize : Int) :
    Exact :=
  let inc := incPageCount auxHeapBase numBytesPerPage heapSize
  if tight auxHeapBase numBytesPerPage heapSize then
    grown numBytesPerPage initPageCount maxPageCount (inc + 1) auxHeapBase heapSize
      (some (auxHeapBase + heapSize + 1024))
  else
    grown numBytesPerPage initPageCount maxPageCount inc auxHeapBase heapSize
      (some (auxHeapBase + heapSize))

def beforeNewPage (numBytesPerPage initPageCount maxPageCount heapSize : Int) : Exact :=
  let inc := (heapSize + numBytesPerPage - 1) / numBytesPerPage
  grown numBytesPerPage initPageCount maxPageCount inc (numBytesPerPage * initPageCount)
    (numBytesPerPage * inc - 1024) none

def place (auxHeapBase : Option Int)
    (numBytesPerPage initPageCount maxPageCount heapSize : Int) : Exact :=
  if initPageCount = maxPageCount ∧ initPageCount = 1 then
    ⟨numBytesPerPage + heapSize, 1, 1, numBytesPerPage, heapSize, none⟩
  else if initPageCount = maxPageCount ∧ initPageCount = 0 then ⟨heapSize, 1, 1, 0, heapSize, none⟩
  else
    match auxHeapBase with
    | some base =>
        if base < numBytesPerPage * initPageCount then
          beforeHeapBase base numBytesPerPage initPageCount maxPageCount heapSize
        else beforeNewPage numBytesPerPage initPageCount maxPageCount heapSize
    | none => beforeNewPage numBytesPerPage initPageCount maxPageCount heapSize

-- The heap lies behind the static data and inside the memory, in front of the new
-- `__heap_base` if there is one, and the memory may not outgrow 4 GiB.
structure Fits (e : Exact) (staticEnd : Int) : Prop where
  static : staticEnd ≤ e.heapOffset
  inside : e.heapOffset + e.heapSize ≤ e.numBytesPerPage * e.initPageCount
  rest : ∀ base, e.heapBase = some base →
    e.heapOffset + e.heapSize ≤ base ∧ base ≤ e.numBytesPerPage * e.initPageCount ∧ base < 2 ^ 32
  pages : e.initPageCount ≤ e.maxPageCount
  limit : e.numBytesPerPage * e.maxPageCount ≤ 2 ^ 32

section Fits

variable {base init max size : Int}

-- The end of the last page that `address` reaches is `bytesToPageEnd` away.
theorem bytesToPageEnd_spec (address : Int) :
    0 ≤ bytesToPageEnd address 65536 ∧ bytesToPageEnd address 65536 < 65536 ∧
      (address + bytesToPageEnd address 65536) % 65536 = 0 := by
  unfold bytesToPageEnd
  split
  · omega
  · omega

theorem grown_fits {inc offset length staticEnd : Int} {heapBase : Option Int} (hinit : init ≤ max)
    (hpages : init + inc ≤ 65536) (hstatic : staticEnd ≤ offset)
    (hinside : offset + length ≤ 65536 * (init + inc))
    (hrest : ∀ base, heapBase = some base →
      offset + length ≤ base ∧ base ≤ 65536 * (init + inc) ∧ base < 2 ^ 32) :
    (grown 65536 init max inc offset length heapBase).Fits staticEnd := by
  refine ⟨hstatic, hinside, hrest, ?_, ?_⟩
  · simp only [grown]
    omega
  · simp only [grown]
    omega

theorem beforeHeapBase_fits (hbase : base < 65536 * init) (hinit : init ≤ max)
    (hpages : (beforeHeapBase base 65536 init max size).initPageCount ≤ 65536) :
    (beforeHeapBase base 65536 init max size).Fits base := by
  have hfirst := bytesToPageEnd_spec base
  have hsecond := bytesToPageEnd_spec (base + size)
  unfold beforeHeapBase at hpages ⊢
  simp only [incPageCount] at hpages ⊢
  by_cases htight : tight base 65536 size
  · simp only [if_pos htight] at hpages ⊢
    simp only [grown, tight] at hpages htight
    apply grown_fits hinit hpages (Int.le_refl _)
    · omega
    · rintro _ ⟨rfl⟩
      omega
  · simp only [if_neg htight] at hpages ⊢
    simp only [grown, tight] at hpages htight
    apply grown_fits hinit hpages (Int.le_refl _)
    · omega
    · rintro _ ⟨rfl⟩
      omega

theorem beforeNewPage_fits (hinit : init ≤ max)
    (hpages : (beforeNewPage 65536 init max size).initPageCount ≤ 65536) :
    (beforeNewPage 65536 init max size).Fits (65536 * init) := by
  simp only [beforeNewPage] at hpages ⊢
  apply grown_fits hinit hpages (Int.le_refl _)
  · omega
  · simp

end Fits

end Exact

section Words

theorem toNat_toUInt32_of_lt {x : UInt64} (h : x.toNat < 2 ^ 32) : x.toUInt32.toNat = x.toNat := by
  rw [UInt64.toNat_toUInt32, Nat.mod_eq_of_lt h]

-- The bytes up to the end of the last page, as the code computes them.
def bytesToPageEnd (address : UInt64) (numBytesPerPage : UInt32) : UInt32 :=
  let bytesOfLastPage := (address % numBytesPerPage.toUInt64).toUInt32
  numBytesPerPage - if bytesOfLastPage = 0 then numBytesPerPage else bytesOfLastPage

theorem toNat_bytesToPageEnd (address : UInt64) :
    ((bytesToPageEnd address 65536).toNat : Int) =
      Exact.bytesToPageEnd address.toNat 65536 := by
  have hpage : (address % (65536 : UInt32).toUInt64).toNat = address.toNat % 65536 := by
    rw [UInt64.toNat_mod]
    rfl
  have hrest : (address % (65536 : UInt32).toUInt64).toUInt32.toNat = address.toNat % 65536 := by
    rw [toNat_toUInt32_of_lt (by omega), hpage]
  have hzero : (address % (65536 : UInt32).toUInt64).toUInt32 = 0 ↔ address.toNat % 65536 = 0 := by
    rw [← UInt32.toNat_inj, hrest]
    rfl
  simp only [bytesToPageEnd, Exact.bytesToPageEnd, hzero]
  by_cases h : address.toNat % 65536 = 0
  · rw [if_pos h, if_pos (by omega)]
    rfl
  · rw [if_neg h, if_neg (by omega), UInt32.toNat_sub, hrest]
    simp only [UInt32.reduceToNat]
    omega

theorem toNat_incPageCount (address : UInt64) {heapSize : UInt32} (h : heapSize.toNat ≤ 2 ^ 30) :
    (((heapSize - bytesToPageEnd address 65536 + 65536 - 1) / 65536).toNat : Int) =
      Exact.incPageCount address.toNat 65536 heapSize.toNat := by
  have hend := toNat_bytesToPageEnd address
  have hbound := Exact.bytesToPageEnd_spec address.toNat
  -- the difference may be negative, but the sum is not
  rw [UInt32.toNat_div, UInt32.toNat_sub, UInt32.toNat_add, UInt32.toNat_sub]
  simp only [UInt32.reduceToNat, Exact.incPageCount]
  omega

theorem insertBeforeHeapBase_eq (build : Build) (isMemory64 : Bool) (auxHeapBase : UInt64)
    (numBytesPerPage heapSize : UInt32) :
    insertBeforeHeapBase build isMemory64 auxHeapBase numBytesPerPage heapSize =
      let tight := bytesToPageEnd (auxHeapBase + heapSize.toUInt64) numBytesPerPage < 1 * BH_KB
      let base := auxHeapBase + heapSize.toUInt64
      let base := if tight then base + (1 * BH_KB).toUInt64 else base
      let inc := (heapSize - bytesToPageEnd auxHeapBase numBytesPerPage + numBytesPerPage - 1) /
        numBytesPerPage
      { numBytesPerPage := numBytesPerPage
        heapOffset := auxHeapBase
        heapSize := heapSize
        incPageCount := if tight then inc + 1 else inc
        heapBase := some
          (if build.memory64 && isMemory64 then base else base.toUInt32.toUInt64) } := rfl

def beforeNewPage (numBytesPerPage initPageCount heapSize : UInt32) : Insertion :=
  let incPageCount := (heapSize + numBytesPerPage - 1) / numBytesPerPage
  let heapSize := (numBytesPerPage.toUInt64 * incPageCount.toUInt64).toUInt32
  { numBytesPerPage := numBytesPerPage
    heapOffset := numBytesPerPage.toUInt64 * initPageCount.toUInt64
    heapSize := if heapSize > 0 then heapSize - 1 * BH_KB else heapSize
    incPageCount := incPageCount
    heapBase := none }

end Words

-- The same numbers, without their width.
def Exact.ofPlan (plan : Plan) : Exact where
  numBytesPerPage := plan.numBytesPerPage.toNat
  initPageCount := plan.initPageCount.toNat
  maxPageCount := plan.maxPageCount.toNat
  heapOffset := plan.heapOffset.toNat
  heapSize := plan.heapSize.toNat
  heapBase := plan.heapBase.map fun base => (base.toNat : Int)

-- The plan that an insertion leads to.
def grow (initPageCount maxPageCount : UInt32) (inserted : Insertion) : Plan :=
  let maxPageCount := maxPageCount + inserted.incPageCount
  ⟨inserted.numBytesPerPage, initPageCount + inserted.incPageCount,
    if maxPageCount > DEFAULT_MAX_PAGES then DEFAULT_MAX_PAGES else maxPageCount,
    inserted.heapOffset, inserted.heapSize, inserted.heapBase⟩

section Plan

variable {build : Build} {module : Module}
  {numBytesPerPage initPageCount maxPageCount heapSize : UInt32} {plan : Plan}

-- How a plan with a heap comes about.
theorem placeHeap_cases
    (h : placeHeap build false DEFAULT_MAX_PAGES module numBytesPerPage initPageCount maxPageCount
      heapSize = .ok plan) (hsize : 0 < plan.heapSize) :
    0 < heapSize ∧
      ((initPageCount = maxPageCount ∧ initPageCount = 1 ∧ ¬ numBytesPerPage + heapSize < heapSize ∧
          plan = ⟨numBytesPerPage + heapSize, initPageCount, maxPageCount,
            numBytesPerPage.toUInt64, heapSize, none⟩) ∨
        (¬ (initPageCount = maxPageCount ∧ initPageCount = 1) ∧
          let inserted := insertion build false module numBytesPerPage initPageCount maxPageCount
            heapSize
          ¬ initPageCount + inserted.incPageCount > DEFAULT_MAX_PAGES ∧
            plan = grow initPageCount maxPageCount inserted)) := by
  unfold placeHeap at h
  generalize hkept : (if heapSize > 0 ∧ module.mallocFunction ∧ module.freeFunction then 0
    else heapSize) = kept at h
  have heq : 0 < kept → kept = heapSize := by
    intro hpos
    split at hkept
    · rw [← hkept] at hpos
      exact absurd hpos (by decide)
    · exact hkept.symm
  dsimp only at h
  split at h
  · cases h
  · split at h
    case isTrue hone =>
      split at h
      · cases h
      case isFalse hwrap =>
        cases h
        cases heq hsize
        exact ⟨hsize, Or.inl ⟨hone.1, hone.2, hwrap, rfl⟩⟩
    case isFalse hone =>
      split at h
      case isTrue hpos =>
        cases heq hpos
        split at h
        · cases h
        case isFalse hpages =>
          cases h
          exact ⟨hpos, Or.inr ⟨hone, hpages, rfl⟩⟩
      case isFalse hpos =>
        cases h
        exact absurd hsize hpos

-- Growing by a number of pages keeps the page counts exact.
theorem ofPlan_grow {inserted : Insertion} {inc : Int} {base : Option Int}
    (hmax : maxPageCount.toNat ≤ 65536) (hinit : initPageCount.toNat ≤ 65536)
    (hpage : inserted.numBytesPerPage = 65536) (hinc : (inserted.incPageCount.toNat : Int) = inc)
    (hsmall : inc ≤ 2 ^ 30)
    (hbase : (inserted.heapBase.map fun base => (base.toNat : Int)) = base) :
    Exact.ofPlan (grow initPageCount maxPageCount inserted) =
      Exact.grown 65536 initPageCount.toNat maxPageCount.toNat inc inserted.heapOffset.toNat
        inserted.heapSize.toNat base := by
  have hcount : (initPageCount + inserted.incPageCount).toNat =
      initPageCount.toNat + inserted.incPageCount.toNat := by
    rw [UInt32.toNat_add]
    omega
  have hlimit : (maxPageCount + inserted.incPageCount).toNat =
      maxPageCount.toNat + inserted.incPageCount.toNat := by
    rw [UInt32.toNat_add]
    omega
  have hcut : ((if maxPageCount + inserted.incPageCount > DEFAULT_MAX_PAGES then DEFAULT_MAX_PAGES
      else maxPageCount + inserted.incPageCount).toNat : Int) =
        min (maxPageCount.toNat + inc) 65536 := by
    have hdefault : DEFAULT_MAX_PAGES.toNat = 65536 := rfl
    split
    case isTrue hlt =>
      rw [gt_iff_lt, UInt32.lt_iff_toNat_lt] at hlt
      omega
    case isFalse hle =>
      rw [gt_iff_lt, UInt32.lt_iff_toNat_lt] at hle
      omega
  simp only [Exact.ofPlan, grow, Exact.grown, hcount, hcut, hbase, hpage, Exact.mk.injEq]
  refine ⟨rfl, by omega, ?_⟩
  simp

theorem toNat_pages (hinit : initPageCount.toNat ≤ 65536) :
    ((65536 : UInt32).toUInt64 * initPageCount.toUInt64).toNat = 65536 * initPageCount.toNat := by
  rw [UInt64.toNat_mul, UInt32.toNat_toUInt64, UInt32.toNat_toUInt64]
  simp only [UInt32.reduceToNat]
  omega

theorem not_gt_pages {inc : UInt32} (hinit : initPageCount.toNat ≤ 65536)
    (hinc : inc.toNat ≤ 2 ^ 30) (h : ¬ initPageCount + inc > DEFAULT_MAX_PAGES) :
    (initPageCount.toNat : Int) + inc.toNat ≤ 65536 := by
  have hdefault : DEFAULT_MAX_PAGES.toNat = 65536 := rfl
  rw [gt_iff_lt, UInt32.lt_iff_toNat_lt, UInt32.toNat_add] at h
  omega

-- The new base survives the store of 32 bits because it lies inside the memory.
theorem map_heapBase {newBase : UInt64} {base : Int} (hbase : (newBase.toNat : Int) = base)
    (hword : base < 2 ^ 32) :
    ((some newBase.toUInt32.toUInt64).map fun base => (base.toNat : Int)) = some base := by
  rw [Option.map_some, UInt32.toNat_toUInt64, toNat_toUInt32_of_lt (by omega), hbase]

theorem tight_iff (address : UInt64) :
    bytesToPageEnd address 65536 < 1 * BH_KB ↔
      Exact.bytesToPageEnd address.toNat 65536 < 1024 := by
  have hguard : (1 * BH_KB).toNat = 1024 := rfl
  rw [UInt32.lt_iff_toNat_lt, hguard, ← toNat_bytesToPageEnd]
  omega

-- A plan that moves `__heap_base`, whatever the number of pages.
theorem ofPlan_grow_heapBase {base newBase : UInt64} {incPageCount : UInt32} {inc new : Int}
    (hmax : maxPageCount.toNat ≤ 65536) (hinit : initPageCount.toNat ≤ 65536)
    (hpages : ¬ initPageCount + incPageCount > DEFAULT_MAX_PAGES)
    (hinc : (incPageCount.toNat : Int) = inc) (hsmall : inc ≤ 2 ^ 30)
    (hnew : (newBase.toNat : Int) = new)
    (hfits : (initPageCount.toNat : Int) + inc ≤ 65536 →
      (Exact.grown 65536 initPageCount.toNat maxPageCount.toNat inc base.toNat heapSize.toNat
        (some new)).Fits base.toNat) :
    let exact := Exact.grown 65536 initPageCount.toNat maxPageCount.toNat inc base.toNat
      heapSize.toNat (some new)
    Exact.ofPlan (grow initPageCount maxPageCount
        ⟨65536, base, heapSize, incPageCount, some newBase.toUInt32.toUInt64⟩) = exact ∧
      exact.Fits base.toNat := by
  have hcount := not_gt_pages hinit (by omega) hpages
  rw [hinc] at hcount
  have hplaced := hfits hcount
  have hword := (hplaced.rest new rfl).2.2
  exact ⟨ofPlan_grow hmax hinit rfl hinc hsmall (map_heapBase hnew hword), hplaced⟩

theorem beforeHeapBase_exact {base : UInt64} (hmax : maxPageCount.toNat ≤ 65536)
    (hinit : initPageCount.toNat ≤ maxPageCount.toNat) (hheap : heapSize.toNat ≤ 2 ^ 30)
    (hbase : base.toNat < 65536 * initPageCount.toNat)
    (hpages : ¬ initPageCount +
      (insertBeforeHeapBase build false base 65536 heapSize).incPageCount > DEFAULT_MAX_PAGES) :
    let exact := Exact.beforeHeapBase base.toNat 65536 initPageCount.toNat maxPageCount.toNat
      heapSize.toNat
    Exact.ofPlan (grow initPageCount maxPageCount
        (insertBeforeHeapBase build false base 65536 heapSize)) = exact ∧
      exact.Fits base.toNat := by
  have hinc := toNat_incPageCount base hheap
  have hend := Exact.bytesToPageEnd_spec base.toNat
  have hnew : (base + heapSize.toUInt64).toNat = base.toNat + heapSize.toNat := by
    rw [UInt64.toNat_add, UInt32.toNat_toUInt64]
    omega
  have hsmall : Exact.incPageCount base.toNat 65536 heapSize.toNat ≤ 2 ^ 16 := by
    unfold Exact.incPageCount
    omega
  have hfits := @Exact.beforeHeapBase_fits base.toNat initPageCount.toNat maxPageCount.toNat
    heapSize.toNat (by omega) (by omega)
  rw [insertBeforeHeapBase_eq, Bool.and_false] at hpages ⊢
  by_cases htight : Exact.tight base.toNat 65536 heapSize.toNat
  · have hcode := (tight_iff (base + heapSize.toUInt64)).mpr (by rw [hnew]; exact htight)
    simp only [if_pos hcode, Exact.beforeHeapBase, if_pos htight] at hpages hfits ⊢
    have hone : (((heapSize - bytesToPageEnd base 65536 + 65536 - 1) / 65536 + 1).toNat : Int) =
        Exact.incPageCount base.toNat 65536 heapSize.toNat + 1 := by
      rw [UInt32.toNat_add, ← hinc]
      simp only [UInt32.reduceToNat]
      omega
    have hmoved : ((base + heapSize.toUInt64 + (1 * BH_KB).toUInt64).toNat : Int) =
        base.toNat + heapSize.toNat + 1024 := by
      have hguard : (1 * BH_KB).toUInt64.toNat = 1024 := rfl
      rw [UInt64.toNat_add, hnew]
      omega
    exact ofPlan_grow_heapBase hmax (by omega) hpages hone (by omega) hmoved hfits
  · have hcode : ¬ bytesToPageEnd (base + heapSize.toUInt64) 65536 < 1 * BH_KB := by
      rw [tight_iff, hnew]
      exact htight
    simp only [if_neg hcode, Exact.beforeHeapBase, if_neg htight] at hpages hfits ⊢
    have hkept : ((base + heapSize.toUInt64).toNat : Int) = base.toNat + heapSize.toNat := by
      omega
    exact ofPlan_grow_heapBase hmax (by omega) hpages hinc (by omega) hkept hfits

theorem beforeNewPage_exact (hmax : maxPageCount.toNat ≤ 65536)
    (hinit : initPageCount.toNat ≤ maxPageCount.toNat) (hheap : heapSize.toNat ≤ 2 ^ 30)
    (hpos : 0 < heapSize)
    (hpages : ¬ initPageCount + (beforeNewPage 65536 initPageCount heapSize).incPageCount >
      DEFAULT_MAX_PAGES) :
    let exact := Exact.beforeNewPage 65536 initPageCount.toNat maxPageCount.toNat heapSize.toNat
    Exact.ofPlan (grow initPageCount maxPageCount
        (beforeNewPage 65536 initPageCount heapSize)) = exact ∧
      exact.Fits (65536 * initPageCount.toNat) := by
  have hsize : 0 < heapSize.toNat := UInt32.lt_iff_toNat_lt.mp hpos
  have hinc : ((heapSize + 65536 - 1) / 65536).toNat = (heapSize.toNat + 65535) / 65536 := by
    rw [UInt32.toNat_div, UInt32.toNat_sub, UInt32.toNat_add]
    simp only [UInt32.reduceToNat]
    omega
  have hexact : ((beforeNewPage 65536 initPageCount heapSize).incPageCount.toNat : Int) =
      (heapSize.toNat + 65536 - 1) / 65536 := by
    change (((heapSize + 65536 - 1) / 65536).toNat : Int) = _
    omega
  have hcount := not_gt_pages (by omega) (by omega) hpages
  rw [hexact] at hcount
  refine ⟨?_, Exact.beforeNewPage_fits (by omega) hcount⟩
  have hwhole : ((65536 : UInt32).toUInt64 *
      ((heapSize + 65536 - 1) / 65536).toUInt64).toUInt32.toNat =
        65536 * ((heapSize.toNat + 65535) / 65536) := by
    have hproduct := @toNat_pages ((heapSize + 65536 - 1) / 65536) (by omega)
    rw [toNat_toUInt32_of_lt (by omega), hproduct, hinc]
  have hlength : ((beforeNewPage 65536 initPageCount heapSize).heapSize.toNat : Int) =
      65536 * ((heapSize.toNat + 65536 - 1) / 65536) - 1024 := by
    have hguard : (1 * BH_KB).toNat = 1024 := rfl
    have hpositive : ((65536 : UInt32).toUInt64 *
        ((heapSize + 65536 - 1) / 65536).toUInt64).toUInt32 > 0 := by
      rw [gt_iff_lt, UInt32.lt_iff_toNat_lt, hwhole]
      simp only [UInt32.reduceToNat]
      omega
    simp only [beforeNewPage, if_pos hpositive]
    rw [UInt32.toNat_sub, hguard, hwhole]
    omega
  have hoffset : (beforeNewPage 65536 initPageCount heapSize).heapOffset.toNat =
      65536 * initPageCount.toNat := toNat_pages (by omega)
  rw [ofPlan_grow hmax (by omega) rfl hexact (by omega) rfl, hlength, hoffset]
  simp only [Exact.beforeNewPage, Int.natCast_mul]
  rfl

theorem insertion_eq (build : Build) (module : Module) :
    insertion build false module numBytesPerPage initPageCount maxPageCount heapSize =
      if initPageCount = maxPageCount ∧ initPageCount = 0 then ⟨heapSize, 0, heapSize, 1, none⟩
      else
        match module.auxHeapBase with
        | some base =>
            if base < numBytesPerPage.toUInt64 * initPageCount.toUInt64 then
              insertBeforeHeapBase build false base numBytesPerPage heapSize
            else beforeNewPage numBytesPerPage initPageCount heapSize
        | none => beforeNewPage numBytesPerPage initPageCount heapSize := rfl

-- Up to where the module's own data lies: its `__heap_base` where the heap has pushed that up,
-- else the end of its memory.
def staticEnd (module : Module) (heapBase : Option UInt64) : Nat :=
  match heapBase with
  | some _ => (module.auxHeapBase.getD 0).toNat
  | none => module.numBytesPerPage.toNat * module.initPageCount.toNat

theorem staticEnd_none (hpage : module.numBytesPerPage = 65536) :
    (staticEnd module none : Int) = 65536 * module.initPageCount.toNat := by
  rw [staticEnd, hpage]
  exact Int.natCast_mul _ _

theorem toNat_count_iff (count : UInt32) :
    ((initPageCount.toNat : Int) = maxPageCount.toNat ∧
        (initPageCount.toNat : Int) = count.toNat) ↔
      initPageCount = maxPageCount ∧ initPageCount = count := by
  rw [← UInt32.toNat_inj, ← UInt32.toNat_inj]
  omega

-- A memory without pages becomes one page that is all heap.
theorem emptyMemory_exact (hheap : heapSize.toNat ≤ 2 ^ 30) :
    let exact : Exact := ⟨heapSize.toNat, 1, 1, 0, heapSize.toNat, none⟩
    Exact.ofPlan (grow 0 0 ⟨heapSize, 0, heapSize, 1, none⟩) = exact ∧ exact.Fits 0 := by
  refine ⟨rfl, Int.le_refl _, ?_, by simp, Int.le_refl _, ?_⟩
  · dsimp only
    omega
  · dsimp only
    omega

-- The three insertions of a heap into a memory of more than one page, or of none.
theorem grow_exact {inserted : Insertion} (hpage : module.numBytesPerPage = 65536)
    (hmax : maxPageCount.toNat ≤ 65536) (hinit : module.initPageCount.toNat ≤ maxPageCount.toNat)
    (hheap : heapSize.toNat ≤ 2 ^ 30) (hpos : 0 < heapSize)
    (hone : ¬ (module.initPageCount = maxPageCount ∧ module.initPageCount = 1))
    (hinserted : inserted =
      insertion build false module 65536 module.initPageCount maxPageCount heapSize)
    (hpages : ¬ module.initPageCount + inserted.incPageCount > DEFAULT_MAX_PAGES) :
    let exact := Exact.place (module.auxHeapBase.map fun base => (base.toNat : Int)) 65536
      module.initPageCount.toNat maxPageCount.toNat heapSize.toNat
    Exact.ofPlan (grow module.initPageCount maxPageCount inserted) = exact ∧
      exact.Fits (staticEnd module inserted.heapBase) := by
  have hcount := @toNat_pages module.initPageCount (by omega)
  have hnewPage : inserted = beforeNewPage 65536 module.initPageCount heapSize →
      Exact.ofPlan (grow module.initPageCount maxPageCount inserted) =
          Exact.beforeNewPage 65536 module.initPageCount.toNat maxPageCount.toNat heapSize.toNat ∧
        (Exact.beforeNewPage 65536 module.initPageCount.toNat maxPageCount.toNat
          heapSize.toNat).Fits (staticEnd module inserted.heapBase) := by
    rintro rfl
    rw [beforeNewPage, staticEnd_none hpage]
    exact beforeNewPage_exact hmax hinit hheap hpos hpages
  rw [insertion_eq] at hinserted
  have hone' : ¬ ((module.initPageCount.toNat : Int) = maxPageCount.toNat ∧
      (module.initPageCount.toNat : Int) = 1) :=
    fun hcounts => hone ((toNat_count_iff 1).mp hcounts)
  have hzero' : ((module.initPageCount.toNat : Int) = maxPageCount.toNat ∧
      (module.initPageCount.toNat : Int) = 0) ↔
        module.initPageCount = maxPageCount ∧ module.initPageCount = 0 :=
    toNat_count_iff 0
  simp only [Exact.place, if_neg hone', hzero']
  by_cases hzero : module.initPageCount = maxPageCount ∧ module.initPageCount = 0
  · rw [if_pos hzero] at hinserted
    rw [if_pos hzero, hinserted, staticEnd_none hpage]
    obtain ⟨hsame, hempty⟩ := hzero
    rw [← hsame, hempty]
    exact emptyMemory_exact hheap
  · rw [if_neg hzero] at hinserted
    rw [if_neg hzero]
    cases hbase : module.auxHeapBase with
    | none =>
        rw [hbase] at hinserted
        exact hnewPage hinserted
    | some base =>
        simp only [hbase, UInt64.lt_iff_toNat_lt, hcount] at hinserted
        simp only [Option.map_some]
        by_cases hbefore : base.toNat < 65536 * module.initPageCount.toNat
        · rw [if_pos hbefore] at hinserted
          subst hinserted
          rw [if_pos (by omega)]
          have hend : (staticEnd module (insertBeforeHeapBase build false base 65536
              heapSize).heapBase : Int) = base.toNat := by
            rw [insertBeforeHeapBase_eq, staticEnd, hbase, Option.getD_some]
          rw [hend]
          exact beforeHeapBase_exact hmax hinit hheap hbefore hpages
        · rw [if_neg hbefore] at hinserted
          rw [if_neg (by omega)]
          exact hnewPage hinserted

theorem placeHeap_exact (hmax : maxPageCount.toNat ≤ 65536)
    (hinit : module.initPageCount.toNat ≤ maxPageCount.toNat) (hheap : heapSize.toNat ≤ 2 ^ 30)
    (hpage : module.numBytesPerPage = 65536 ∨
      module.initPageCount = maxPageCount ∧ module.initPageCount = 1)
    (h : placeHeap build false DEFAULT_MAX_PAGES module module.numBytesPerPage
      module.initPageCount maxPageCount heapSize = .ok plan) (hsize : 0 < plan.heapSize) :
    Exact.ofPlan plan = Exact.place (module.auxHeapBase.map fun base => (base.toNat : Int))
        module.numBytesPerPage.toNat module.initPageCount.toNat maxPageCount.toNat heapSize.toNat ∧
      (Exact.ofPlan plan).Fits (staticEnd module plan.heapBase) := by
  obtain ⟨hpos, ⟨hsame, hone, hwrap, rfl⟩ | ⟨hone, hpages, rfl⟩⟩ := placeHeap_cases h hsize
  · rw [UInt32.lt_iff_toNat_lt, UInt32.toNat_add] at hwrap
    have hbound := module.numBytesPerPage.toNat_lt
    have hsum : (module.numBytesPerPage + heapSize).toNat =
        module.numBytesPerPage.toNat + heapSize.toNat := by
      rw [UInt32.toNat_add]
      omega
    have hexact : Exact.ofPlan ⟨module.numBytesPerPage + heapSize, module.initPageCount,
        maxPageCount, module.numBytesPerPage.toUInt64, heapSize, none⟩ =
          ⟨module.numBytesPerPage.toNat + heapSize.toNat, 1, 1, module.numBytesPerPage.toNat,
            heapSize.toNat, none⟩ := by
      simp only [Exact.ofPlan, hsum, ← hsame, hone]
      rfl
    have hend : staticEnd module none = module.numBytesPerPage.toNat := by
      rw [staticEnd, hone]
      exact Nat.mul_one _
    rw [hexact, hend, ← hsame, hone]
    refine ⟨rfl, Int.le_refl _, ?_, by simp, Int.le_refl _, ?_⟩
    · dsimp only
      omega
    · dsimp only
      omega
  · have hwhole := hpage.resolve_right hone
    rw [hwhole] at hpages ⊢
    obtain ⟨hexact, hfits⟩ := grow_exact hwhole hmax hinit hheap hpos hone rfl hpages
    exact ⟨hexact, hexact ▸ hfits⟩

end Plan

section Memory

-- The bits outside a mask and the bits under it add up.
theorem and_not_add_and (x mask : BitVec 64) : (x &&& ~~~mask) + (x &&& mask) = x := by
  have hdisjoint : (x &&& ~~~mask) &&& (x &&& mask) = 0#64 := by
    ext i hi
    simp only [BitVec.getElem_and, BitVec.getElem_not, BitVec.getElem_zero]
    grind
  rw [BitVec.add_eq_or_of_and_eq_zero _ _ hdisjoint]
  ext i hi
  simp only [BitVec.getElem_or, BitVec.getElem_and, BitVec.getElem_not]
  grind

-- Rounding up to whole pages of the system loses nothing.
theorem le_alignAsAndCast {size : UInt64} (h : size.toNat < 2 ^ 63) :
    size.toNat ≤ (alignAsAndCast size PAGE_SIZE).toNat := by
  have hmask : (PAGE_SIZE - 1).toNat = 4095 := rfl
  have hpage : PAGE_SIZE.toNat = 4096 := rfl
  have hsum : (size + PAGE_SIZE - 1).toNat = size.toNat + 4095 := by
    rw [UInt64.toNat_sub, UInt64.toNat_add, hpage]
    simp only [UInt64.reduceToNat]
    omega
  have hparts : (alignAsAndCast size PAGE_SIZE +
      ((size + PAGE_SIZE - 1) &&& (PAGE_SIZE - 1))).toNat = size.toNat + 4095 := by
    rw [← hsum]
    exact congrArg BitVec.toNat (and_not_add_and (size + PAGE_SIZE - 1).toBitVec _)
  have hrest : ((size + PAGE_SIZE - 1) &&& (PAGE_SIZE - 1)).toNat ≤ 4095 := by
    rw [UInt64.toNat_and, hmask]
    exact Nat.and_le_right
  rw [UInt64.toNat_add] at hparts
  omega

theorem wasmRuntimeGetMaxMem_bounds {init max : UInt32} (pages : UInt32) (h : init ≤ max) :
    init ≤ wasmRuntimeGetMaxMem pages init max ∧ wasmRuntimeGetMaxMem pages init max ≤ max := by
  unfold wasmRuntimeGetMaxMem
  simp only [UInt32.le_iff_toNat_le, gt_iff_lt, UInt32.lt_iff_toNat_lt] at h ⊢
  split
  · omega
  · split
    · omega
    · split
      · omega
      · omega

-- The size that is left of the configured one: a multiple of 8, at most 1 GiB.
def appHeapSize (heapSize : UInt32) : UInt32 :=
  if alignUint heapSize 8 > APP_HEAP_SIZE_MAX then APP_HEAP_SIZE_MAX else alignUint heapSize 8

theorem appHeapSize_le (heapSize : UInt32) : (appHeapSize heapSize).toNat ≤ 2 ^ 30 := by
  have hlimit : APP_HEAP_SIZE_MAX.toNat = 2 ^ 30 := rfl
  unfold appHeapSize
  split
  · omega
  case isFalse h =>
    rw [gt_iff_lt, UInt32.lt_iff_toNat_lt] at h
    omega

theorem wasmAllocateLinearMemory_some {build : Build} {host : Host} {isSharedMemory : Bool}
    {numBytesPerPage initPageCount maxPageCount memoryDataSize : UInt64}
    (h : wasmAllocateLinearMemory build host isSharedMemory numBytesPerPage initPageCount
      maxPageCount = some memoryDataSize) :
    memoryDataSize = alignAsAndCast (initPageCount * numBytesPerPage) PAGE_SIZE := by
  simp only [wasmAllocateLinearMemory, Option.ite_none_left_eq_some, Option.some.injEq] at h
  exact h.2.symm

variable {build : Build} {host : Host} {module : Module} {parent : Option Memory}
  {heapSize maxMemoryPages : UInt32} {memory : Memory}

-- The memory that is allocated for a plan.
def allocated (plan : Plan) : Memory where
  numBytesPerPage := plan.numBytesPerPage
  curPageCount := plan.initPageCount
  maxPageCount := plan.maxPageCount
  memoryDataSize := alignAsAndCast
    (plan.initPageCount.toUInt64 * plan.numBytesPerPage.toUInt64) PAGE_SIZE
  heap := some (plan.heapOffset, plan.heapSize)
  heapBase := plan.heapBase

-- The module's flags ask for the memory that its parent already has.
def SharesParent (build : Build) (module : Module) (parent : Option Memory) : Prop :=
  (build.sharedMemory && module.flags &&& SHARED_MEMORY_FLAG != 0) = true ∧ parent ≠ none

theorem instantiate_cases (hwidth : (build.memory64 && module.flags &&& MEMORY64_FLAG != 0) = false)
    (hown : ¬ SharesParent build module parent)
    (h : instantiate build host module parent heapSize maxMemoryPages = .ok memory) :
    ∃ plan, placeHeap build false DEFAULT_MAX_PAGES module module.numBytesPerPage
        module.initPageCount
        (wasmRuntimeGetMaxMem maxMemoryPages module.initPageCount module.maxPageCount)
        (appHeapSize heapSize) = .ok plan ∧
      memory = allocated plan := by
  unfold instantiate memoryInstantiate at h
  simp only [hwidth, if_true, true_and, Bool.false_eq_true, if_false] at h
  split at h
  case h_1 hshared =>
    exact absurd ⟨hshared, by simp⟩ hown
  case h_2 =>
    cases hplan : placeHeap build false DEFAULT_MAX_PAGES module module.numBytesPerPage
        module.initPageCount
        (wasmRuntimeGetMaxMem maxMemoryPages module.initPageCount module.maxPageCount)
        (appHeapSize heapSize) with
    | error reason =>
        unfold appHeapSize at hplan
        simp only [hplan, bind, Except.bind] at h
        cases h
    | ok plan =>
        refine ⟨plan, rfl, ?_⟩
        unfold appHeapSize at hplan
        simp only [hplan, bind, Except.bind] at h
        split at h
        · cases h
        case h_2 memoryDataSize hallocated =>
          rw [allocated, ← wasmAllocateLinearMemory_some hallocated]
          split at h
          · split at h
            · cases h
            · split at h
              · cases h
              · cases h
                rfl
          · cases h
            rfl

end Memory

def Exact.ofMemory (memory : Memory) (heapOffset : UInt64) (heapSize : UInt32) : Exact where
  numBytesPerPage := memory.numBytesPerPage.toNat
  initPageCount := memory.curPageCount.toNat
  maxPageCount := memory.maxPageCount.toNat
  heapOffset := heapOffset.toNat
  heapSize := heapSize.toNat
  heapBase := memory.heapBase.map fun base => (base.toNat : Int)

def heapInterval (heapOffset : UInt64) (heapSize : UInt32) : Set Nat :=
  Set.Ico heapOffset.toNat (heapOffset.toNat + heapSize.toNat)

-- The heap lies inside the memory, and touches neither what the module had before nor what
-- lies from the new `__heap_base` on.
structure Sound (module : Module) (memory : Memory) (heapOffset : UInt64) (heapSize : UInt32) :
    Prop where
  inside : heapInterval heapOffset heapSize ⊆ Set.Ico 0 memory.memoryDataSize.toNat
  static : Disjoint (heapInterval heapOffset heapSize)
    (Set.Ico 0 (staticEnd module memory.heapBase))
  rest : ∀ base, memory.heapBase = some base →
    Disjoint (heapInterval heapOffset heapSize)
      (Set.Ico base.toNat memory.memoryDataSize.toNat) ∧ base ≤ memory.memoryDataSize
  pages : memory.curPageCount ≤ memory.maxPageCount
  limit : memory.numBytesPerPage.toNat * memory.maxPageCount.toNat ≤
    MAX_LINEAR_MEMORY_SIZE.toNat

theorem le_memoryDataSize {plan : Plan}
    (h : plan.numBytesPerPage.toNat * plan.initPageCount.toNat ≤ 2 ^ 32) :
    plan.numBytesPerPage.toNat * plan.initPageCount.toNat ≤
      (allocated plan).memoryDataSize.toNat := by
  have hbytes : (plan.initPageCount.toUInt64 * plan.numBytesPerPage.toUInt64).toNat =
      plan.numBytesPerPage.toNat * plan.initPageCount.toNat := by
    rw [UInt64.toNat_mul, UInt32.toNat_toUInt64, UInt32.toNat_toUInt64, Nat.mul_comm,
      Nat.mod_eq_of_lt (by omega)]
  rw [← hbytes]
  exact le_alignAsAndCast (by omega)

-- What holds of the integers holds of the memory.
theorem sound_of_fits {module : Module} {plan : Plan}
    (h : (Exact.ofPlan plan).Fits (staticEnd module plan.heapBase)) :
    Sound module (allocated plan) plan.heapOffset plan.heapSize := by
  obtain ⟨hstatic, hinside, hrest, hpages, hlimit⟩ := h
  simp only [Exact.ofPlan, ← Int.natCast_mul] at hstatic hinside hrest hpages hlimit
  have hcount : plan.initPageCount.toNat ≤ plan.maxPageCount.toNat := by omega
  have hproduct : plan.numBytesPerPage.toNat * plan.initPageCount.toNat ≤
      plan.numBytesPerPage.toNat * plan.maxPageCount.toNat := Nat.mul_le_mul_left _ hcount
  have hsize := @le_memoryDataSize plan (by omega)
  constructor
  · exact Set.Ico_subset_Ico (Nat.zero_le _) (by omega)
  · rw [heapInterval, Set.Ico_disjoint_Ico]
    exact (min_le_right _ _).trans (le_max_of_le_left (Int.ofNat_le.mp hstatic))
  · intro base hbase
    obtain ⟨hbehind, hinside', -⟩ := hrest base.toNat (congrArg (Option.map _) hbase)
    refine ⟨?_, UInt64.le_iff_toNat_le.mpr (by omega)⟩
    rw [heapInterval, Set.Ico_disjoint_Ico]
    omega
  · exact UInt32.le_iff_toNat_le.mpr hcount
  · exact Int.ofNat_le.mp hlimit

-- Whenever a memory of 32 bits gets an app heap, its numbers are the exact ones and the heap
-- overlaps nothing.
theorem instantiate_sound (build : Build) (host : Host) (module : Module)
    (parent : Option Memory) (heapSize maxMemoryPages : UInt32) (memory : Memory)
    (offset : UInt64) (size : UInt32)
    (hwidth : (build.memory64 && module.flags &&& MEMORY64_FLAG != 0) = false)
    (hinit : module.initPageCount ≤ module.maxPageCount)
    (hmax : module.maxPageCount ≤ DEFAULT_MAX_PAGES)
    (hpage : module.numBytesPerPage = 65536 ∨
      module.initPageCount = 1 ∧ module.maxPageCount = 1)
    (hown : ¬ SharesParent build module parent)
    (h : instantiate build host module parent heapSize maxMemoryPages = .ok memory)
    (hheap : memory.heap = some (offset, size)) (hsize : 0 < size) :
    Exact.ofMemory memory offset size =
        Exact.place (module.auxHeapBase.map fun base => (base.toNat : Int))
          module.numBytesPerPage.toNat module.initPageCount.toNat
          (wasmRuntimeGetMaxMem maxMemoryPages module.initPageCount module.maxPageCount).toNat
          (appHeapSize heapSize).toNat ∧
      Sound module memory offset size := by
  obtain ⟨plan, hplan, rfl⟩ := instantiate_cases hwidth hown h
  cases hheap
  obtain ⟨hlow, hhigh⟩ := wasmRuntimeGetMaxMem_bounds maxMemoryPages hinit
  have hpage' : module.numBytesPerPage = 65536 ∨
      module.initPageCount = wasmRuntimeGetMaxMem maxMemoryPages module.initPageCount
        module.maxPageCount ∧ module.initPageCount = 1 := by
    rcases hpage with hpage | ⟨hone, hone'⟩
    · exact Or.inl hpage
    · refine Or.inr ⟨?_, hone⟩
      rw [hone, hone'] at hlow hhigh ⊢
      exact UInt32.le_antisymm hlow hhigh
  have hlimit := UInt32.le_iff_toNat_le.mp (UInt32.le_trans hhigh hmax)
  obtain ⟨hexact, hfits⟩ := placeHeap_exact hlimit (UInt32.le_iff_toNat_le.mp hlow)
    (appHeapSize_le heapSize) hpage' hplan hsize
  exact ⟨hexact, sound_of_fits hfits⟩

theorem instantiate_sound_sample :
    Exact.ofMemory ⟨65536, 3, 11, 196608, some (70000, 100000), some 170000⟩ 70000 100000 =
        Exact.place (some 70000) 65536 2 10 100000 ∧
      Sound sampleModule ⟨65536, 3, 11, 196608, some (70000, 100000), some 170000⟩ 70000 100000 :=
  instantiate_sound ⟨false, false⟩ sampleHost sampleModule none 100000 0 _ 70000 100000 (by decide)
    (by decide) (by decide) (Or.inl rfl) (by simp [SharesParent]) rfl rfl (by decide)

end Watz.Instantiate.Placement
