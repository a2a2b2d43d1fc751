import Mathlib.Logic.Function.Iterate
import Watz.Attester.Receive
import Watz.Tee

namespace Watz.Attester

open Base Base.Layout

-- The whole function for a socket whose calls succeed: `none` while it still runs, else its
-- result code (`none` is `TEE_SUCCESS`) and its variables when it returns.
def Receiving.returns (cuts : Nat → Nat) (dataSize : Nat) :
    Nat → Receiving → Option (Option TeeError × Receiving)
  | 0, _ => none
  | fuel + 1, r =>
      if r.goesOn dataSize then
        if dataSize < r.transferedData then some (some .shortBuffer, r)
        else (r.next cuts).returns cuts dataSize fuel
      else some (none, r)

-- The variables after so many calls of `recv`, had the loop no other end.
def Wire.asked (wire : Wire) (chunkSize calls : Nat) : Receiving :=
  (Receiving.next wire.cuts)^[calls] (wire.start chunkSize)

-- The function returns `TEE_SUCCESS` with the front of the stream in the buffer, has stored
-- nowhere else, and leaves the bytes of the next message in the stream.
def Exact (wire : Wire) (chunkSize dataSize : Nat) : Prop :=
  ∃ rounds r, (wire.start chunkSize).returns wire.cuts dataSize rounds = some (none, r) ∧
    r.transferedData = min wire.pending.length dataSize ∧
    (∀ i < min wire.pending.length dataSize, r.data i = wire.pending.getD i 0) ∧
    (∀ range ∈ r.stores, range.1 + range.2 ≤ dataSize) ∧
    r.pending = wire.pending.drop (min wire.pending.length dataSize)

-- Some call of `recv` returns more than the room that its predecessors left.
def Straddles (wire : Wire) (chunkSize dataSize : Nat) : Prop :=
  ∃ calls, (wire.asked chunkSize calls).dataCursor < dataSize ∧
    dataSize < (wire.asked chunkSize (calls + 1)).dataCursor

section Returns

variable {wire : Wire} {chunkSize dataSize : Nat}

-- The test inside the loop never succeeds, so only the head of the loop ends it.
theorem returns_run {cuts : Nat → Nat} (fuel : Nat) (r : Receiving)
    (hdone : (Loop.run (Receiving.goesOn dataSize) (Receiving.next cuts) fuel r).goesOn dataSize
      = false) :
    r.returns cuts dataSize (fuel + 1) =
      some (none, Loop.run (Receiving.goesOn dataSize) (Receiving.next cuts) fuel r) := by
  induction fuel generalizing r with
  | zero =>
      simp only [Loop.run] at hdone
      simp [Receiving.returns, Loop.run, hdone]
  | succ fuel ih =>
      by_cases hgoes : r.goesOn dataSize = true
      · have hroom : ¬dataSize < r.transferedData := by
          simp only [Receiving.goesOn, Bool.and_eq_true, decide_eq_true_eq] at hgoes
          omega
        simp only [Loop.run, hgoes, if_true] at hdone ⊢
        rw [Receiving.returns, if_pos hgoes, if_neg hroom]
        exact ih _ hdone
      · simp only [Bool.not_eq_true] at hgoes
        simp [Receiving.returns, Loop.run, hgoes]

-- More rounds than the loop needs change nothing.
theorem returns_unique {cuts : Nat → Nat} {fuel other : Nat} {r : Receiving}
    {value value' : Option TeeError × Receiving}
    (h : r.returns cuts dataSize fuel = some value)
    (h' : r.returns cuts dataSize other = some value') : value = value' := by
  induction fuel generalizing r other with
  | zero => simp [Receiving.returns] at h
  | succ fuel ih =>
      cases other with
      | zero => simp [Receiving.returns] at h'
      | succ other =>
          simp only [Receiving.returns] at h h'
          split at h
          case isTrue hgoes =>
            rw [if_pos hgoes] at h'
            split at h
            case isTrue hsmall =>
              rw [if_pos hsmall] at h'
              exact Option.some.inj (h.symm.trans h')
            case isFalse hsmall =>
              rw [if_neg hsmall] at h'
              exact ih h h'
          case isFalse hgoes =>
            rw [if_neg hgoes] at h'
            exact Option.some.inj (h.symm.trans h')

theorem returns_receive (h : 0 < chunkSize) :
    ∃ rounds, (wire.start chunkSize).returns wire.cuts dataSize rounds =
      some (none, receiveSocketPerChunk wire chunkSize dataSize) :=
  ⟨_, returns_run _ _ (receive_done h)⟩

theorem exact_iff_receive (h : 0 < chunkSize) :
    Exact wire chunkSize dataSize ↔
      (receiveSocketPerChunk wire chunkSize dataSize).transferedData =
          min wire.pending.length dataSize ∧
        (∀ i < min wire.pending.length dataSize,
          (receiveSocketPerChunk wire chunkSize dataSize).data i = wire.pending.getD i 0) ∧
        (∀ range ∈ (receiveSocketPerChunk wire chunkSize dataSize).stores,
          range.1 + range.2 ≤ dataSize) ∧
        (receiveSocketPerChunk wire chunkSize dataSize).pending =
          wire.pending.drop (min wire.pending.length dataSize) := by
  obtain ⟨rounds, hreturns⟩ : ∃ rounds, (wire.start chunkSize).returns wire.cuts dataSize rounds =
      some (none, receiveSocketPerChunk wire chunkSize dataSize) := returns_receive h
  constructor
  · rintro ⟨fuel, r, hr, hexact⟩
    cases returns_unique hr hreturns
    exact hexact
  · intro hexact
    exact ⟨rounds, _, hreturns, hexact⟩

end Returns

section Asked

variable {wire : Wire} {chunkSize : Nat}

theorem asked_succ (calls : Nat) :
    wire.asked chunkSize (calls + 1) = (wire.asked chunkSize calls).next wire.cuts :=
  Function.iterate_succ_apply' _ _ _

theorem asked_delivers (h : 0 < chunkSize) (calls : Nat) :
    (wire.asked chunkSize calls).Delivers wire := by
  induction calls with
  | zero => exact delivers_start h
  | succ calls ih =>
      rw [asked_succ]
      exact ih.next

theorem dataCursor_next (r : Receiving) (cuts : Nat → Nat) :
    (r.next cuts).dataCursor = r.dataCursor + (r.next cuts).chunkSize := rfl

theorem asked_mono {calls later : Nat} (h : calls ≤ later) :
    (wire.asked chunkSize calls).dataCursor ≤ (wire.asked chunkSize later).dataCursor := by
  induction later, h using Nat.le_induction with
  | base => exact Nat.le_refl _
  | succ later _ ih =>
      rw [asked_succ, dataCursor_next]
      omega

-- A call returns no more than it was asked for. Only the drained stream is asked for nothing.
theorem chunkSize_next_le {r : Receiving} (h : r.Delivers wire) :
    (r.next wire.cuts).chunkSize ≤ r.chunkSize := by
  have hdrained := h.drained
  simp only [Receiving.next, recv]
  split
  case isTrue => exact Nat.zero_le _
  case isFalse hne =>
    have hasked : r.chunkSize ≠ 0 := fun hzero => hne (hdrained hzero)
    omega

end Asked

-- Where the loop is and how it got there: its variables are those after as many calls of
-- `recv`, and its last store ends at the cursor.
structure Receiving.Follows (wire : Wire) (chunkSize : Nat) (r : Receiving) : Prop where
  eq_asked : r = wire.asked chunkSize r.calls
  last_store : r.dataCursor = 0 ∨ ∃ range ∈ r.stores, range.1 + range.2 = r.dataCursor

section Straddle

variable {wire : Wire} {chunkSize dataSize : Nat}

theorem Receiving.Follows.next {r : Receiving} (h : r.Follows wire chunkSize) :
    (r.next wire.cuts).Follows wire chunkSize where
  eq_asked := by
    have hcalls : (r.next wire.cuts).calls = r.calls + 1 := rfl
    rw [hcalls, asked_succ, ← h.eq_asked]
  last_store := by
    refine Or.inr ⟨(r.dataCursor, (r.next wire.cuts).chunkSize), ?_, rfl⟩
    simp [Receiving.next]

theorem receive_follows :
    (receiveSocketPerChunk wire chunkSize dataSize).Follows wire chunkSize :=
  Loop.run_invariant (fun _ _ hr => hr.next) _ ⟨rfl, Or.inl rfl⟩

-- Without a straddling call the cursor stays inside the buffer and its count does not wrap.
theorem receive_inside (h : 0 < chunkSize) (hword : dataSize < 2 ^ 32)
    (hfits : ¬Straddles wire chunkSize dataSize) :
    (receiveSocketPerChunk wire chunkSize dataSize).dataCursor ≤ dataSize := by
  let Inside (r : Receiving) : Prop :=
    r.Delivers wire ∧ r.Follows wire chunkSize ∧ r.dataCursor ≤ dataSize
  have hstep : ∀ r, r.goesOn dataSize = true → Inside r → Inside (r.next wire.cuts) := by
    rintro r hgoes ⟨hdelivers, hfollows, hle⟩
    refine ⟨hdelivers.next, hfollows.next, ?_⟩
    simp only [Receiving.goesOn, Bool.and_eq_true, decide_eq_true_eq, hdelivers.counts] at hgoes
    have hroom : r.dataCursor < dataSize := by omega
    by_contra hover
    refine hfits ⟨r.calls, ?_, ?_⟩
    · rwa [← hfollows.eq_asked]
    · rw [asked_succ, ← hfollows.eq_asked]
      omega
  exact (Loop.run_invariant hstep _ ⟨delivers_start h, ⟨rfl, Or.inl rfl⟩, Nat.zero_le _⟩).2.2

theorem exact_of_inside (h : 0 < chunkSize) (hword : dataSize < 2 ^ 32)
    (hinside : (receiveSocketPerChunk wire chunkSize dataSize).dataCursor ≤ dataSize) :
    Exact wire chunkSize dataSize := by
  have hdelivers : (receiveSocketPerChunk wire chunkSize dataSize).Delivers wire :=
    receive_delivers h
  have hdone : (receiveSocketPerChunk wire chunkSize dataSize).goesOn dataSize = false :=
    receive_done h
  have hcursor := hdelivers.cursor_le
  have hmin : (receiveSocketPerChunk wire chunkSize dataSize).dataCursor =
      min wire.pending.length dataSize := by
    simp only [Receiving.goesOn, Bool.and_eq_false_iff, decide_eq_false_iff_not] at hdone
    rcases hdone with hchunk | hcount
    · have hnil := hdelivers.drained (by omega)
      rw [hdelivers.pending_eq, List.drop_eq_nil_iff] at hnil
      omega
    · rw [hdelivers.counts] at hcount
      omega
  rw [exact_iff_receive h, ← hmin]
  refine ⟨?_, hdelivers.front_eq, ?_, hdelivers.pending_eq⟩
  · rw [hdelivers.counts]
    omega
  · intro range hrange
    have hstore := hdelivers.stores_le range hrange
    omega

theorem exact_iff_not_straddles (h : 0 < chunkSize) (hword : dataSize < 2 ^ 32) :
    Exact wire chunkSize dataSize ↔ ¬Straddles wire chunkSize dataSize := by
  constructor
  · rintro hexact ⟨calls, hbefore, hafter⟩
    obtain ⟨-, -, hstores, -⟩ := (exact_iff_receive h).mp hexact
    have hfollows : (receiveSocketPerChunk wire chunkSize dataSize).Follows wire chunkSize :=
      receive_follows
    have hdelivers : (receiveSocketPerChunk wire chunkSize dataSize).Delivers wire :=
      receive_delivers h
    have hdone : (receiveSocketPerChunk wire chunkSize dataSize).goesOn dataSize = false :=
      receive_done h
    generalize receiveSocketPerChunk wire chunkSize dataSize = r at *
    have hinside : r.dataCursor ≤ dataSize := by
      rcases hfollows.last_store with hzero | ⟨range, hrange, hend⟩
      · omega
      · have hbound := hstores range hrange
        omega
    -- the loop stopped before the straddling call, and there is no reason to
    have hearly : r.calls ≤ calls := by
      by_contra hlate
      have hmono : (wire.asked chunkSize (calls + 1)).dataCursor ≤
          (wire.asked chunkSize r.calls).dataCursor := asked_mono (by omega)
      rw [← hfollows.eq_asked] at hmono
      omega
    have hmono : (wire.asked chunkSize r.calls).dataCursor ≤
        (wire.asked chunkSize calls).dataCursor := asked_mono hearly
    rw [← hfollows.eq_asked] at hmono
    simp only [Receiving.goesOn, Bool.and_eq_false_iff, decide_eq_false_iff_not] at hdone
    rcases hdone with hchunk | hcount
    · have hnil := hdelivers.drained (by omega)
      rw [hdelivers.pending_eq, List.drop_eq_nil_iff] at hnil
      have hlength : (wire.asked chunkSize (calls + 1)).dataCursor ≤ wire.pending.length :=
        (asked_delivers h (calls + 1)).cursor_le
      omega
    · rw [hdelivers.counts] at hcount
      omega
  · intro hfits
    exact exact_of_inside h hword (receive_inside h hword hfits)

end Straddle

section Sizes

variable {wire : Wire} {chunkSize dataSize : Nat}

theorem asked_chunkSize_le (h : 0 < chunkSize) (calls : Nat) :
    (wire.asked chunkSize calls).chunkSize ≤ chunkSize := by
  induction calls with
  | zero => exact Nat.le_refl _
  | succ calls ih =>
      rw [asked_succ]
      exact (chunkSize_next_le (asked_delivers h calls)).trans ih

theorem not_straddles_of_short (h : 0 < chunkSize) (hshort : wire.pending.length ≤ dataSize) :
    ¬Straddles wire chunkSize dataSize := by
  rintro ⟨calls, -, hafter⟩
  have hlength : (wire.asked chunkSize (calls + 1)).dataCursor ≤ wire.pending.length :=
    (asked_delivers h (calls + 1)).cursor_le
  omega

theorem not_straddles_of_bytewise : ¬Straddles wire 1 dataSize := by
  rintro ⟨calls, hbefore, hafter⟩
  have hchunk : (wire.asked 1 (calls + 1)).chunkSize ≤ 1 := asked_chunkSize_le (by omega) _
  rw [asked_succ, dataCursor_next] at hafter
  rw [asked_succ] at hchunk
  omega

-- As long as two bytes are asked for, only pairs have been received.
theorem asked_pairs (calls : Nat) :
    (wire.asked 2 calls).chunkSize = 2 → (wire.asked 2 calls).dataCursor % 2 = 0 := by
  induction calls with
  | zero => exact fun _ => rfl
  | succ calls ih =>
      have hfirst : (wire.asked 2 calls).chunkSize ≤ 2 := asked_chunkSize_le (by omega) _
      have hless : (wire.asked 2 (calls + 1)).chunkSize ≤ (wire.asked 2 calls).chunkSize := by
        rw [asked_succ]
        exact chunkSize_next_le (asked_delivers (by omega) calls)
      intro htwo
      have hpairs := ih (by omega)
      rw [asked_succ] at htwo ⊢
      rw [dataCursor_next, htwo]
      omega

theorem not_straddles_of_pairs (heven : dataSize % 2 = 0) : ¬Straddles wire 2 dataSize := by
  rintro ⟨calls, hbefore, hafter⟩
  have hfirst : (wire.asked 2 calls).chunkSize ≤ 2 := asked_chunkSize_le (by omega) _
  have hless : (wire.asked 2 (calls + 1)).chunkSize ≤ (wire.asked 2 calls).chunkSize := by
    rw [asked_succ]
    exact chunkSize_next_le (asked_delivers (by omega) calls)
  have hpairs : (wire.asked 2 calls).chunkSize = 2 → (wire.asked 2 calls).dataCursor % 2 = 0 :=
    asked_pairs calls
  rw [asked_succ] at hless
  rw [asked_succ, dataCursor_next] at hafter
  by_cases htwo : (wire.asked 2 calls).chunkSize = 2
  · have hcursor := hpairs htwo
    omega
  · omega

-- A transport that hands over two bytes at a time while that many are asked for and there.
theorem iterate_next_twos (cuts : Nat → Nat) (count : Nat) {r : Receiving}
    (hcuts : ∀ i, cuts (r.calls + i) = 2) (hchunk : 2 ≤ r.chunkSize)
    (hlength : 2 * count ≤ r.pending.length) :
    ((Receiving.next cuts)^[count] r).dataCursor = r.dataCursor + 2 * count := by
  induction count generalizing r with
  | zero => rfl
  | succ count ih =>
      have hne : r.pending ≠ [] := by
        rintro hnil
        simp [hnil] at hlength
      have hgot : recv r.chunkSize (cuts r.calls) r.pending = 2 := by
        have hcut := hcuts 0
        rw [Nat.add_zero] at hcut
        rw [recv, if_neg hne, hcut]
        omega
      rw [Function.iterate_succ_apply, ih]
      · simp only [Receiving.next, hgot]
        omega
      · intro i
        have hcut := hcuts (i + 1)
        simpa only [Receiving.next, Nat.add_comm 1, Nat.add_assoc] using hcut
      · simp only [Receiving.next, hgot]
        omega
      · simp only [Receiving.next, hgot, List.length_drop]
        omega

-- Three bytes first where the room is even, then pairs: the last pair sticks out by one byte.
def oddCuts (dataSize : Nat) : Nat → Nat := fun i =>
  if dataSize % 2 = 0 ∧ i = 0 then 3 else 2

theorem straddles_oddCuts {stream : List UInt8} {stale : Mem} (hlength : dataSize < stream.length)
    (hsize : 0 < dataSize) (hchunk : 3 ≤ chunkSize ∨ 2 ≤ chunkSize ∧ dataSize % 2 = 1) :
    Straddles ⟨stream, oddCuts dataSize, stale⟩ chunkSize dataSize := by
  have hne : stream ≠ [] := by
    rintro rfl
    simp at hlength
  by_cases hodd : dataSize % 2 = 1
  · have hpairs : ∀ count, 2 * count ≤ stream.length →
        ((⟨stream, oddCuts dataSize, stale⟩ : Wire).asked chunkSize count).dataCursor =
          2 * count := by
      intro count hcount
      rw [Wire.asked, iterate_next_twos]
      · simp only [Wire.start, Nat.zero_add]
      · intro i
        show oddCuts dataSize (0 + i) = 2
        rw [oddCuts, if_neg (by omega)]
      · simp only [Wire.start]
        omega
      · exact hcount
    refine ⟨dataSize / 2, ?_, ?_⟩
    · rw [hpairs _ (by omega)]
      omega
    · rw [hpairs _ (by omega)]
      omega
  · have hthree : 3 ≤ chunkSize := by omega
    have hgot : recv chunkSize (oddCuts dataSize 0) stream = 3 := by
      rw [recv, if_neg hne, oddCuts, if_pos (by omega)]
      omega
    have hfirst : ∀ count, 2 * count ≤ stream.length - 3 →
        ((⟨stream, oddCuts dataSize, stale⟩ : Wire).asked chunkSize (count + 1)).dataCursor =
          3 + 2 * count := by
      intro count hcount
      rw [Wire.asked, Function.iterate_succ_apply, iterate_next_twos]
      · simp only [Receiving.next, Wire.start, hgot]
      · intro i
        show oddCuts dataSize (0 + 1 + i) = 2
        rw [oddCuts, if_neg (by omega)]
      · simp only [Receiving.next, Wire.start, hgot]
        omega
      · simp only [Receiving.next, Wire.start, hgot, List.length_drop]
        omega
    by_cases htwo : dataSize = 2
    · refine ⟨0, by simpa [Wire.asked, Wire.start] using hsize, ?_⟩
      rw [hfirst 0 (by omega)]
      omega
    · refine ⟨dataSize / 2 - 2 + 1, ?_, ?_⟩
      · rw [hfirst _ (by omega)]
        omega
      · rw [hfirst _ (by omega)]
        omega

end Sizes

-- A call of `receive_socket_per_chunk` delivers the stream exactly when the sums of what its
-- calls of `recv` return do not jump over the end of the buffer. Every transport keeps to that
-- when the stream fits the buffer, and otherwise only for the smallest chunks.
theorem receiveSocketPerChunk_exact_iff (chunkSize dataSize : UInt32) (h : 0 < chunkSize)
    (stream : List UInt8) (stale : Mem) :
    (∀ cuts, Exact ⟨stream, cuts, stale⟩ chunkSize.toNat dataSize.toNat ↔
        ¬Straddles ⟨stream, cuts, stale⟩ chunkSize.toNat dataSize.toNat) ∧
      ((∀ cuts, Exact ⟨stream, cuts, stale⟩ chunkSize.toNat dataSize.toNat) ↔
        dataSize.toNat = 0 ∨ stream.length ≤ dataSize.toNat ∨ chunkSize.toNat = 1 ∨
          chunkSize.toNat = 2 ∧ dataSize.toNat % 2 = 0) := by
  have hpos : 0 < chunkSize.toNat := UInt32.lt_iff_toNat_lt.mp h
  have hword : dataSize.toNat < 2 ^ 32 := dataSize.toNat_lt
  have hpoint : ∀ cuts, Exact ⟨stream, cuts, stale⟩ chunkSize.toNat dataSize.toNat ↔
      ¬Straddles ⟨stream, cuts, stale⟩ chunkSize.toNat dataSize.toNat :=
    fun cuts => exact_iff_not_straddles hpos hword
  refine ⟨hpoint, ?_, ?_⟩
  · intro hall
    by_contra hsizes
    have hodd : 3 ≤ chunkSize.toNat ∨ 2 ≤ chunkSize.toNat ∧ dataSize.toNat % 2 = 1 := by omega
    exact (hpoint _).mp (hall (oddCuts dataSize.toNat))
      (straddles_oddCuts (by omega) (by omega) hodd)
  · intro hsizes cuts
    rw [hpoint]
    rcases hsizes with hzero | hshort | hone | ⟨htwo, heven⟩
    · rintro ⟨calls, hbefore, -⟩
      omega
    · exact not_straddles_of_short hpos hshort
    · rw [hone]
      exact not_straddles_of_bytewise
    · rw [htwo]
      exact not_straddles_of_pairs heven

theorem receiveSocketPerChunk_exact_whole :
    (0 : UInt32) < 224 ∧ Exact ⟨List.replicate 224 7, fun _ => 100, fun _ => 0⟩ 224 224 :=
  ⟨by decide,
    (receiveSocketPerChunk_exact_iff 224 224 (by decide) (List.replicate 224 7) fun _ => 0).2.mpr
      (Or.inr (Or.inl (Nat.le_of_eq List.length_replicate))) fun _ => 100⟩

-- `receive_msg3` with a block for no data and one byte too many, and `receive_msg1` with the
-- 240 bytes that the verifier sends for a buffer of 224, all but one of which come first.
theorem receiveSocketPerChunk_overruns :
    ¬Exact ⟨List.replicate 73 7, fun _ => 73, fun _ => 0⟩ (256 * 1024) 72 ∧
      ¬Exact ⟨List.replicate 240 7, fun _ => 223, fun _ => 0⟩ 224 224 := by
  constructor
  · rw [exact_iff_not_straddles (by decide) (by decide), not_not]
    exact ⟨0, by decide, by decide⟩
  · rw [exact_iff_not_straddles (by decide) (by decide), not_not]
    exact ⟨1, by decide +kernel, by decide +kernel⟩

end Watz.Attester
