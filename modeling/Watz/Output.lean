import Watz.Base.Layout
import Watz.Base.Run

namespace Watz.Output

open Base Base.Layout

variable {ρ : Type}

-- The two globals of `tz_file.c`: `output_buffer` as the reference to shared memory that it
-- points into and its offset there, and `output_buffer_size`. Both are static, so zero at first.
structure Globals (ρ : Type) where
  outputBuffer : Option ρ
  cursor : Nat
  outputBufferSize : Nat

def Globals.initial : Globals ρ := ⟨none, 0, 0⟩

def watzSetOutputBuffer (buffer : ρ) (bufferSize : UInt32) : Globals ρ :=
  ⟨some buffer, 0, bufferSize.toNat⟩

-- One `memcpy` through `output_buffer`.
structure Store (ρ : Type) where
  target : Option ρ
  offset : Nat
  bytes : List UInt8
  deriving DecidableEq

-- The arguments of `writev`: each `iovec` is the range of bytes it describes. `staging` tells
-- whether `os_malloc` grants the staging block, and `printed` whether `os_printf` comes back: the
-- text is a format there, and its directives read arguments that nobody passed.
structure Call where
  fd : Int
  iov : List (List UInt8)
  staging : Bool
  printed : Bool

structure Written (ρ : Type) where
  result : Int
  store : Option (Store ρ)

def nchars (iov : List (List UInt8)) : Nat := (iov.map List.length).sum

def assemble (iov : List (List UInt8)) : List UInt8 := iov.flatten

@[simp] theorem length_assemble (iov : List (List UInt8)) : (assemble iov).length = nchars iov := by
  simp [assemble, nchars, List.length_flatten]

-- Without a staging block the first `memcpy` of a byte faults.
def Call.returns (call : Call) : Bool :=
  !(call.fd = 1 ∨ call.fd = 2) || (call.staging || nchars call.iov = 0) && call.printed

-- The end of a call: the copy out of the staging block, which holds the assembled bytes. A block
-- that does not fit is dropped, and its bytes are reported as written all the same.
def deliver (g : Globals ρ) (call : Call) : Globals ρ × Written ρ :=
  if call.fd = 1 ∨ call.fd = 2 then
    if nchars call.iov < g.outputBufferSize then
      ({ g with
          cursor := g.cursor + nchars call.iov
          outputBufferSize := g.outputBufferSize - nchars call.iov },
        ⟨nchars call.iov, some ⟨g.outputBuffer, g.cursor, assemble call.iov⟩⟩)
    else (g, ⟨nchars call.iov, none⟩)
  else (g, ⟨-1, none⟩)

-- A call that does not come back ends the trusted application.
def writev (g : Globals ρ) (call : Call) : Option (Globals ρ × Written ρ) :=
  if call.returns then some (deliver g call) else none

-- The bytes that a call leaves in the shared buffer.
def Written.stored (written : Written ρ) : List UInt8 :=
  match written.store with
  | some store => store.bytes
  | none => []

-- A call that writes nothing, or more than the room left, or elsewhere.
def Idle (g : Globals ρ) (call : Call) : Prop :=
  ¬(call.fd = 1 ∨ call.fd = 2) ∨ nchars call.iov = 0 ∨ g.outputBufferSize ≤ nchars call.iov

section Deliver

variable {g : Globals ρ} {call : Call}

theorem deliver_of_idle (h : Idle g call) : (deliver g call).1 = g := by
  unfold deliver
  split
  case isTrue hfd =>
    split
    case isTrue hfits =>
      have hzero : nchars call.iov = 0 := by
        rcases h with hother | hzero | hfull
        · exact absurd hfd hother
        · exact hzero
        · omega
      simp [hzero]
    case isFalse => rfl
  case isFalse => rfl

theorem stored_nil_iff : (deliver g call).2.stored = [] ↔ Idle g call := by
  unfold deliver Idle
  by_cases hfd : call.fd = 1 ∨ call.fd = 2
  · by_cases hfits : nchars call.iov < g.outputBufferSize
    · simp only [if_pos hfd, if_pos hfits, Written.stored, ← List.length_eq_zero_iff,
        length_assemble]
      constructor
      · intro hzero
        exact Or.inr (Or.inl hzero)
      · rintro (hother | hzero | hfull)
        · exact absurd hfd hother
        · exact hzero
        · omega
    · simp only [if_pos hfd, if_neg hfits, Written.stored, true_iff]
      exact Or.inr (Or.inr (Nat.not_lt.mp hfits))
  · simp only [if_neg hfd, Written.stored, true_iff]
    exact Or.inl hfd

theorem deliver_outputBuffer : (deliver g call).1.outputBuffer = g.outputBuffer := by
  unfold deliver
  split
  · split <;> rfl
  · rfl

theorem store_target {store : Store ρ} (h : (deliver g call).2.store = some store) :
    store.target = g.outputBuffer := by
  unfold deliver at h
  split at h
  · split at h
    · cases h
      rfl
    · cases h
  · cases h

-- A buffer without room takes nothing.
theorem idle_of_no_room (h : g.outputBufferSize = 0) : Idle g call := by
  refine Or.inr (Or.inr ?_)
  omega

end Deliver

section Capture

inductive Descriptor where
  | stdout
  | stderr
  deriving DecidableEq

def Descriptor.fd : Descriptor → Int
  | stdout => 1
  | stderr => 2

-- One piece of the guest's output, for which the staging block is granted.
structure Line where
  descriptor : Descriptor
  iov : List (List UInt8)

def Line.total (line : Line) : Nat := nchars line.iov

def Line.bytes (line : Line) : List UInt8 := assemble line.iov

def Line.call (line : Line) : Call := ⟨line.descriptor.fd, line.iov, true, true⟩

theorem Line.fd_eq (line : Line) : line.descriptor.fd = 1 ∨ line.descriptor.fd = 2 := by
  cases line.descriptor
  · exact Or.inl rfl
  · exact Or.inr rfl

theorem Line.returns (line : Line) : line.call.returns = true := by
  simp [Call.returns, Line.call]

theorem writev_line (g : Globals ρ) (line : Line) :
    writev g line.call = some (deliver g line.call) := by
  rw [writev, if_pos line.returns]

theorem deliver_line (g : Globals ρ) (line : Line) :
    deliver g line.call =
      if line.total < g.outputBufferSize then
        ({ g with
            cursor := g.cursor + line.total
            outputBufferSize := g.outputBufferSize - line.total },
          ⟨line.total, some ⟨g.outputBuffer, g.cursor, line.bytes⟩⟩)
      else (g, ⟨line.total, none⟩) := by
  have hfd : line.call.fd = 1 ∨ line.call.fd = 2 := line.fd_eq
  rw [deliver, if_pos hfd]
  rfl

theorem get_writev_line {g : Globals ρ} {line : Line} (h : (writev g line.call).isSome) :
    (writev g line.call).get h = deliver g line.call :=
  Option.get_of_eq_some h (writev_line g line)

-- The globals while one buffer is set, and what that buffer holds.
structure Capture where
  globals : Globals Unit
  memory : Mem

def Capture.start (size : UInt32) (stale : Mem) : Capture := ⟨watzSetOutputBuffer () size, stale⟩

def Capture.next (s : Capture) (line : Line) : Capture × Written Unit :=
  let (globals, written) := (writev s.globals line.call).get (by simp [writev_line])
  match written.store with
  | some store => (⟨globals, write s.memory store.offset store.bytes⟩, written)
  | none => (⟨globals, s.memory⟩, written)

-- What the bytes in the buffer tell about the output of the guest.
structure Faithful (size : UInt32) (stale : Mem) (lines : List Line) : Prop where
  inside : ∀ t ∈ Run.steps Capture.next (.start size stale) lines,
    ∀ store, t.output.store = some store → store.offset + store.bytes.length ≤ size.toNat
  bounds : ∀ t ∈ Run.steps Capture.next (.start size stale) lines,
    t.after.globals.cursor + t.after.globals.outputBufferSize = size.toNat
  front : ∀ done rest, lines = done ++ rest →
    slice (Run.final Capture.next (.start size stale) done).memory 0
        (Run.final Capture.next (.start size stale) done).globals.cursor <+:
      (done.map Line.bytes).flatten
  -- a call that stores a byte comes after calls that stored all they reported
  kept : (Run.steps Capture.next (.start size stale) lines).Pairwise fun earlier later =>
    later.output.stored = [] ∨ (earlier.output.stored.length : Int) = earlier.output.result

-- Once a call does not fit behind the output so far, no later one fits there either.
def Settled (room : Nat) (totals : List Nat) : Prop :=
  ∀ before total between later after, totals = before ++ total :: (between ++ later :: after) →
    before.sum < room → room ≤ before.sum + total → later = 0 ∨ room ≤ before.sum + later

-- The cursor and the room left always meet the end of the buffer.
def Capture.Bounded (size : Nat) (s : Capture) : Prop :=
  s.globals.cursor + s.globals.outputBufferSize = size

variable {s : Capture} {line : Line}

theorem next_of_lt (h : line.total < s.globals.outputBufferSize) :
    s.next line =
      (⟨{ s.globals with
            cursor := s.globals.cursor + line.total
            outputBufferSize := s.globals.outputBufferSize - line.total },
          write s.memory s.globals.cursor line.bytes⟩,
        ⟨line.total, some ⟨s.globals.outputBuffer, s.globals.cursor, line.bytes⟩⟩) := by
  simp only [Capture.next, get_writev_line, deliver_line, if_pos h]

theorem next_of_le (h : s.globals.outputBufferSize ≤ line.total) :
    s.next line = (s, ⟨line.total, none⟩) := by
  simp only [Capture.next, get_writev_line, deliver_line, if_neg (Nat.not_lt.mpr h)]

-- The strict comparison leaves at least one byte of the buffer unused.
theorem next_bounds {size : Nat} (h : s.Bounded size) :
    (s.next line).1.Bounded size ∧
      ∀ store, (s.next line).2.store = some store → store.offset + store.bytes.length ≤ size := by
  simp only [Capture.Bounded] at h ⊢
  by_cases hfits : line.total < s.globals.outputBufferSize
  · rw [next_of_lt hfits]
    constructor
    · simp only
      omega
    · rintro store ⟨⟩
      simp only [Line.bytes, length_assemble]
      simp only [Line.total] at hfits
      omega
  · rw [next_of_le (Nat.not_lt.mp hfits)]
    exact ⟨h, fun store hstore => by simp at hstore⟩

theorem next_idle (h : line.total = 0 ∨ s.globals.outputBufferSize ≤ line.total) :
    (s.next line).1 = s ∧ (s.next line).2.stored = [] := by
  by_cases hfits : line.total < s.globals.outputBufferSize
  · have hzero : line.total = 0 := by omega
    have hbytes : line.bytes = [] := by
      rw [← List.length_eq_zero_iff, Line.bytes, length_assemble]
      exact hzero
    rw [next_of_lt hfits, hzero, hbytes, write_nil]
    exact ⟨rfl, rfl⟩
  · rw [next_of_le (Nat.not_lt.mp hfits)]
    exact ⟨rfl, rfl⟩

theorem run_idle {lines : List Line}
    (h : ∀ line ∈ lines, line.total = 0 ∨ s.globals.outputBufferSize ≤ line.total) :
    Run.final Capture.next s lines = s ∧
      ∀ t ∈ Run.steps Capture.next s lines, t.output.stored = [] := by
  induction lines with
  | nil => exact ⟨rfl, by simp [Run.steps]⟩
  | cons line rest ih =>
      obtain ⟨hstate, hstored⟩ := next_idle (h line List.mem_cons_self)
      obtain ⟨hfinal, hrest⟩ := ih fun other hother => h other (List.mem_cons_of_mem _ hother)
      simp only [Run.final, Run.steps, hstate]
      refine ⟨hfinal, ?_⟩
      intro t ht
      rcases List.mem_cons.mp ht with rfl | ht
      · exact hstored
      · exact hrest t ht

-- The converse: when no call stores a byte, none fits the room.
theorem idle_of_stored_nil {lines : List Line}
    (h : ∀ t ∈ Run.steps Capture.next s lines, t.output.stored = []) :
    ∀ line ∈ lines, line.total = 0 ∨ s.globals.outputBufferSize ≤ line.total := by
  induction lines with
  | nil => simp
  | cons line rest ih =>
      have hfirst : (s.next line).2.stored = [] := h (Run.one Capture.next s line) List.mem_cons_self
      have hidle : line.total = 0 ∨ s.globals.outputBufferSize ≤ line.total := by
        by_contra hfits
        rw [next_of_lt (by omega)] at hfirst
        have hlength := congrArg List.length hfirst
        simp only [Written.stored, Line.bytes, length_assemble, List.length_nil] at hlength
        simp only [Line.total] at hfits
        omega
      have hstate := (next_idle hidle).1
      intro other hother
      rcases List.mem_cons.mp hother with rfl | hother
      · exact hidle
      · refine ih ?_ other hother
        intro t ht
        refine h t (List.mem_cons_of_mem _ ?_)
        rwa [hstate]

theorem Settled.tail {room total : Nat} {totals : List Nat} (h : Settled room (total :: totals))
    (hfits : total < room) : Settled (room - total) totals := by
  intro before first between later after htotals hbefore hfirst
  have hlater := h (total :: before) first between later after (by rw [htotals, List.cons_append])
  simp only [List.sum_cons] at hlater
  have hroom := hlater (by omega) (by omega)
  omega

theorem Settled.idle {room total : Nat} {totals : List Nat} (h : Settled room (total :: totals))
    (hfull : room ≤ total) : ∀ later ∈ totals, later = 0 ∨ room ≤ later := by
  intro later hlater
  by_cases hroom : room = 0
  · omega
  · obtain ⟨between, after, htotals⟩ := List.append_of_mem hlater
    have hidle := h [] total between later after (by rw [htotals, List.nil_append])
    simp only [List.sum_nil] at hidle
    have hnext := hidle (by omega) (by omega)
    omega

theorem kept_of_settled {lines : List Line}
    (h : Settled s.globals.outputBufferSize (lines.map Line.total)) :
    (Run.steps Capture.next s lines).Pairwise fun earlier later =>
      later.output.stored = [] ∨ (earlier.output.stored.length : Int) = earlier.output.result := by
  induction lines generalizing s with
  | nil => exact List.Pairwise.nil
  | cons line rest ih =>
      by_cases hfits : line.total < s.globals.outputBufferSize
      · refine List.Pairwise.cons ?_ (ih ?_)
        · intro later _
          refine Or.inr ?_
          simp only [Run.one, next_of_lt hfits, Written.stored, Line.bytes, length_assemble, Line.total]
        · rw [next_of_lt hfits]
          exact h.tail hfits
      · have hidle : ∀ other ∈ rest,
            other.total = 0 ∨ s.globals.outputBufferSize ≤ other.total := fun other hother =>
          h.idle (Nat.not_lt.mp hfits) _ (List.mem_map_of_mem hother)
        refine List.Pairwise.cons ?_ (ih ?_)
        · intro later hlater
          rw [next_of_le (Nat.not_lt.mp hfits)] at hlater
          exact Or.inl ((run_idle hidle).2 later hlater)
        · rw [next_of_le (Nat.not_lt.mp hfits)]
          intro before total between later after htotals _ _
          have hmem : later ∈ rest.map Line.total := by
            rw [htotals]
            simp
          obtain ⟨other, hother, rfl⟩ := List.mem_map.mp hmem
          rcases hidle other hother with hzero | hfull
          · exact Or.inl hzero
          · exact Or.inr (hfull.trans (Nat.le_add_left _ _))

theorem front_of_settled {lines : List Line} (done rest : List Line) (hlines : lines = done ++ rest)
    (h : Settled s.globals.outputBufferSize (lines.map Line.total)) :
    ∃ stored, stored <+: (done.map Line.bytes).flatten ∧
      slice (Run.final Capture.next s done).memory 0
          (Run.final Capture.next s done).globals.cursor =
        slice s.memory 0 s.globals.cursor ++ stored := by
  induction done generalizing s lines with
  | nil => exact ⟨[], List.nil_prefix, by simp [Run.final]⟩
  | cons line done ih =>
      subst hlines
      by_cases hfits : line.total < s.globals.outputBufferSize
      · have hnext := next_of_lt hfits
        obtain ⟨stored, hprefix, hslice⟩ := @ih (s.next line).1 (done ++ rest) rfl (by
          rw [hnext]
          exact h.tail hfits)
        refine ⟨line.bytes ++ stored, ?_, ?_⟩
        · simpa using hprefix
        · have hlength : line.total = line.bytes.length := by
            rw [Line.bytes, length_assemble, Line.total]
          rw [Run.final, hslice, hnext]
          simp only
          rw [hlength, slice_write_front, List.append_assoc]
      · have hidle : ∀ other ∈ line :: done,
            other.total = 0 ∨ s.globals.outputBufferSize ≤ other.total := by
          intro other hother
          rcases List.mem_cons.mp hother with rfl | hother
          · exact Or.inr (Nat.not_lt.mp hfits)
          · exact h.idle (Nat.not_lt.mp hfits) _
              (List.mem_map_of_mem (List.mem_append_left _ hother))
        refine ⟨[], List.nil_prefix, ?_⟩
        rw [(run_idle hidle).1, List.append_nil]

theorem settled_of_kept {lines : List Line}
    (h : (Run.steps Capture.next s lines).Pairwise fun earlier later =>
      later.output.stored = [] ∨ (earlier.output.stored.length : Int) = earlier.output.result) :
    Settled s.globals.outputBufferSize (lines.map Line.total) := by
  induction lines generalizing s with
  | nil =>
      intro before total between later after htotals
      simp at htotals
  | cons line rest ih =>
      rw [Run.steps, List.pairwise_cons] at h
      obtain ⟨hfirst, hrest⟩ := h
      intro before total between later after htotals hbefore hfull
      rw [List.map_cons] at htotals
      cases before with
      | nil =>
          obtain ⟨rfl, hsplit⟩ := List.cons.inj htotals
          simp only [List.sum_nil, Nat.zero_add] at hbefore hfull ⊢
          -- the dropped call reports bytes that it did not store, so the rest stores none
          have hnone : ∀ t ∈ Run.steps Capture.next s rest, t.output.stored = [] := by
            intro t ht
            rw [next_of_le hfull] at hfirst
            rcases hfirst t ht with hstored | hreported
            · exact hstored
            · simp only [Run.one, next_of_le hfull, Written.stored, List.length_nil] at hreported
              omega
          have hmem : later ∈ rest.map Line.total := by
            rw [hsplit]
            simp
          obtain ⟨other, hother, rfl⟩ := List.mem_map.mp hmem
          exact idle_of_stored_nil hnone other hother
      | cons first before =>
          obtain ⟨rfl, hsplit⟩ := List.cons.inj htotals
          simp only [List.sum_cons] at hbefore hfull ⊢
          have hfits : line.total < s.globals.outputBufferSize := by omega
          have hsettled := ih hrest before total between later after hsplit
          rw [next_of_lt hfits] at hsettled
          have hroom := hsettled (by simp only; omega) (by simp only; omega)
          simp only at hroom
          omega

end Capture

-- The buffer holds a front of what the guest wrote exactly when no call fits behind one that
-- did not.
theorem writev_faithful_iff (size : UInt32) (stale : Mem) (lines : List Line) :
    Faithful size stale lines ↔ Settled size.toNat (lines.map Line.total) := by
  constructor
  · intro h
    exact settled_of_kept h.kept
  · intro h
    have hstart : (Capture.start size stale).Bounded size.toNat := Nat.zero_add _
    have hinv : ∀ t ∈ Run.steps Capture.next (.start size stale) lines,
        t.before.Bounded size.toNat ∧ t.after.Bounded size.toNat := by
      refine Run.invariant hstart ?_
      intro t ht hbefore
      rw [Run.after_eq ht]
      exact (next_bounds hbefore).1
    refine ⟨?_, fun t ht => (hinv t ht).2, ?_, kept_of_settled h⟩
    · intro t ht store hstore
      rw [Run.output_eq ht] at hstore
      exact (next_bounds (hinv t ht).1).2 store hstore
    · intro done rest hlines
      obtain ⟨stored, hprefix, hslice⟩ := @front_of_settled (.start size stale) _ done rest hlines h
      rw [hslice]
      simpa [Capture.start, watzSetOutputBuffer, slice] using hprefix

-- Four bytes do not fit a buffer of four. The next byte does, and is all that the buffer holds.
theorem writev_loses_output :
    ¬Faithful 4 (fun _ => 0) [⟨.stdout, [[97, 98], [99, 100]]⟩, ⟨.stderr, [[101]]⟩] := by
  intro h
  have hfront := h.front _ [] (List.append_nil _).symm
  revert hfront
  decide

end Watz.Output
