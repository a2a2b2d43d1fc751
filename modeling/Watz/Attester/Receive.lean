import Watz.Base.Layout
import Watz.Base.Loop

namespace Watz.Attester

open Base Base.Layout

-- The stream that the peer sends, how the transport cuts it into results of `recv`, and what
-- the receiving memory held before.
structure Wire where
  pending : List UInt8
  cuts : Nat → Nat
  stale : Mem

-- `recv` gives between one byte and what was asked for, and nothing at the end of the stream.
def recv (requested cut : Nat) (pending : List UInt8) : Nat :=
  if pending = [] then 0 else max 1 (min cut (min requested pending.length))

-- The variables of `receive_socket_per_chunk`, the stream it has not consumed yet, the memory
-- at `data`, and its stores so far as offset and length.
structure Receiving where
  chunkSize : Nat
  dataCursor : Nat
  transferedData : Nat
  calls : Nat
  pending : List UInt8
  data : Mem
  stores : List (Nat × Nat)

-- The test for an overrun inside the loop repeats half of this one and never succeeds.
def Receiving.goesOn (dataSize : Nat) (r : Receiving) : Bool :=
  decide (0 < r.chunkSize) && decide (r.transferedData < dataSize)

-- `chunk_size` is what the last call returned when the next one asks for it.
def Receiving.next (cuts : Nat → Nat) (r : Receiving) : Receiving :=
  let got := recv r.chunkSize (cuts r.calls) r.pending
  { chunkSize := got
    dataCursor := r.dataCursor + got
    transferedData := (r.transferedData + got) % 2 ^ 32
    calls := r.calls + 1
    pending := r.pending.drop got
    data := write r.data r.dataCursor (r.pending.take got)
    stores := r.stores ++ [(r.dataCursor, got)] }

def Wire.start (wire : Wire) (chunkSize : Nat) : Receiving :=
  ⟨chunkSize, 0, 0, 0, wire.pending, wire.stale, []⟩

-- A call that returns an error ends the loop at once, which its callers model.
def receiveSocketPerChunk (wire : Wire) (chunkSize dataSize : Nat) : Receiving :=
  Loop.run (Receiving.goesOn dataSize) (Receiving.next wire.cuts) (wire.pending.length + 1)
    (wire.start chunkSize)

-- The bytes consumed so far are the front of the stream, they lie at the front of the memory,
-- and every store went there.
structure Receiving.Delivers (wire : Wire) (r : Receiving) : Prop where
  cursor_le : r.dataCursor ≤ wire.pending.length
  pending_eq : r.pending = wire.pending.drop r.dataCursor
  front_eq : ∀ i < r.dataCursor, r.data i = wire.pending.getD i 0
  behind_eq : ∀ i, r.dataCursor ≤ i → r.data i = wire.stale i
  stores_le : ∀ range ∈ r.stores, range.1 + range.2 ≤ r.dataCursor
  counts : r.transferedData = r.dataCursor % 2 ^ 32
  drained : r.chunkSize = 0 → r.pending = []

section Loop

variable {wire : Wire} {chunkSize dataSize : Nat}

theorem recv_le (requested cut : Nat) (pending : List UInt8) :
    recv requested cut pending ≤ pending.length := by
  unfold recv
  split
  case isTrue => exact Nat.zero_le _
  case isFalse hne =>
    have hpos := List.length_pos_of_ne_nil hne
    omega

theorem recv_eq_zero {requested cut : Nat} {pending : List UInt8}
    (h : recv requested cut pending = 0) : pending = [] := by
  unfold recv at h
  split at h
  case isTrue hnil => exact hnil
  case isFalse => omega

theorem delivers_start (h : 0 < chunkSize) : (wire.start chunkSize).Delivers wire where
  cursor_le := Nat.zero_le _
  pending_eq := rfl
  front_eq i hi := absurd hi (Nat.not_lt_zero i)
  behind_eq i _ := rfl
  stores_le range hrange := by simp [Wire.start] at hrange
  counts := rfl
  drained hzero := by
    simp only [Wire.start] at hzero
    omega

theorem Receiving.Delivers.next {r : Receiving} (h : r.Delivers wire) :
    (r.next wire.cuts).Delivers wire := by
  have hgot := recv_le r.chunkSize (wire.cuts r.calls) r.pending
  have hpending : r.pending.length = wire.pending.length - r.dataCursor := by
    rw [h.pending_eq, List.length_drop]
  have hcursor := h.cursor_le
  refine ⟨?_, ?_, ?_, ?_, ?_, ?_, ?_⟩
  · simp only [Receiving.next]
    omega
  · simp only [Receiving.next, h.pending_eq, List.drop_drop]
  · intro i hi
    simp only [Receiving.next] at hi
    simp only [Receiving.next, write, List.length_take, Nat.min_eq_left hgot]
    by_cases hold : i < r.dataCursor
    · rw [if_neg (by omega), h.front_eq i hold]
    · have htake : i - r.dataCursor < recv r.chunkSize (wire.cuts r.calls) r.pending := by omega
      rw [if_pos (by omega), List.getD_eq_getElem?_getD, List.getElem?_take, if_pos htake,
        h.pending_eq, List.getElem?_drop, show r.dataCursor + (i - r.dataCursor) = i by omega,
        List.getD_eq_getElem?_getD]
  · intro i hi
    simp only [Receiving.next] at hi
    simp only [Receiving.next, write, List.length_take, Nat.min_eq_left hgot]
    rw [if_neg (by omega), h.behind_eq i (by omega)]
  · intro range hrange
    simp only [Receiving.next, List.mem_append, List.mem_singleton] at hrange ⊢
    rcases hrange with hold | rfl
    · have hbound := h.stores_le range hold
      omega
    · exact Nat.le_refl _
  · simp only [Receiving.next, h.counts]
    omega
  · intro hzero
    simp only [Receiving.next] at hzero ⊢
    rw [recv_eq_zero hzero, List.drop_nil]

theorem receive_delivers (h : 0 < chunkSize) :
    (receiveSocketPerChunk wire chunkSize dataSize).Delivers wire :=
  Loop.run_invariant (fun _ _ hr => hr.next) _ (delivers_start h)

-- The loop ends by itself: each round consumes a byte or is the last.
theorem receive_done (h : 0 < chunkSize) :
    (receiveSocketPerChunk wire chunkSize dataSize).goesOn dataSize = false := by
  refine Loop.run_done (fun r => r.pending.length + min r.chunkSize 1)
    (fun _ _ hr => hr.next) ?_ (delivers_start h) ?_
  · intro r hgoes hr
    simp only [Receiving.goesOn, Bool.and_eq_true, decide_eq_true_eq] at hgoes
    have hgot := recv_le r.chunkSize (wire.cuts r.calls) r.pending
    simp only [Receiving.next, List.length_drop]
    by_cases hzero : recv r.chunkSize (wire.cuts r.calls) r.pending = 0
    · omega
    · omega
  · simp only [Wire.start]
    omega

-- A stream no longer than the buffer is received whole, however it is cut.
theorem receive_whole (h : 0 < chunkSize) (hfits : wire.pending.length ≤ dataSize)
    (hword : dataSize < 2 ^ 32) :
    (receiveSocketPerChunk wire chunkSize dataSize).dataCursor = wire.pending.length := by
  have hdelivers : (receiveSocketPerChunk wire chunkSize dataSize).Delivers wire :=
    receive_delivers h
  have hdone : (receiveSocketPerChunk wire chunkSize dataSize).goesOn dataSize = false :=
    receive_done h
  have hcursor := hdelivers.cursor_le
  simp only [Receiving.goesOn, Bool.and_eq_false_iff, decide_eq_false_iff_not] at hdone
  rcases hdone with hchunk | hcount
  · have hnil := hdelivers.drained (by omega)
    rw [hdelivers.pending_eq, List.drop_eq_nil_iff] at hnil
    omega
  · rw [hdelivers.counts] at hcount
    omega

end Loop

end Watz.Attester
