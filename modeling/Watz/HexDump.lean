import Watz.Base.Format
import Watz.Base.Loop
import Watz.Wire

namespace Watz.HexDump

open Base Base.Format Base.Layout

def UINT8_DIGIT_MAX_SIZE : Nat := 2
def MAX_NUMBER_OF_BYTES_PER_LINE : Nat := 50

def bufferLen : Nat :=
  UINT8_DIGIT_MAX_SIZE * MAX_NUMBER_OF_BYTES_PER_LINE + MAX_NUMBER_OF_BYTES_PER_LINE

def space : UInt8 := 32

-- A lower-case hexadecimal digit.
def hexDigit (d : Nat) : UInt8 := UInt8.ofNat (if d < 10 then 48 + d else 87 + d)

def hexPair (b : UInt8) : List UInt8 := [hexDigit (b.toNat / 16), hexDigit (b.toNat % 16)]

-- "%02x ".
def byteFormat : List UInt8 := [percent, 48, 50, 120, space]

def byteText (b : UInt8) : List UInt8 := output (fun _ => hexPair b) byteFormat

-- The variables of `utils_print_byte_array`, with the index of every store into `buffer` and
-- the strings that have been printed.
structure State where
  i : Nat
  bytesOnLine : Nat
  bufferCursor : Nat
  buffer : Mem
  stores : List Nat
  lines : List (List UInt8)

-- An `int` passed where a `size_t` is expected.
def sizeT (value : Int) : Nat := (value % 2 ^ 64).toNat

-- `snprintf(buffer + buffer_cursor, size, ...)`. The result counts the whole text, also the
-- part that does not fit.
def State.snprintf (s : State) (size : Nat) (text : List UInt8) : State :=
  if size = 0 then { s with bufferCursor := s.bufferCursor + text.length }
  else
    { s with
      bufferCursor := s.bufferCursor + text.length
      buffer := write s.buffer s.bufferCursor (truncated size text ++ [0])
      stores := s.stores ++
        (List.range ((truncated size text).length + 1)).map fun k => s.bufferCursor + k }

section Code

variable (byteArray : Mem) (byteArrayLen : Nat)

def forGuard (s : State) : Bool :=
  decide (s.bytesOnLine < MAX_NUMBER_OF_BYTES_PER_LINE ∧ s.i < byteArrayLen)

def forBody (s : State) : State :=
  let s := s.snprintf (sizeT (bufferLen - s.bufferCursor)) (byteText (byteArray s.i))
  { s with i := s.i + 1, bytesOnLine := s.bytesOnLine + 1 }

-- The `for` loop counts up to its bound, so it makes no more rounds than that.
def fillLine (s : State) : State :=
  Loop.run (forGuard byteArrayLen) (forBody byteArray) MAX_NUMBER_OF_BYTES_PER_LINE
    { s with bufferCursor := 0, bytesOnLine := 0 }

-- `buffer[buffer_cursor] = '\0';` and `IMSG("[%s]", buffer);`.
def printLine (s : State) : State :=
  let buffer := write s.buffer s.bufferCursor [0]
  { s with
    buffer := buffer
    stores := s.stores ++ [s.bufferCursor]
    lines := s.lines ++ [stringText none (slice buffer 0 (s.bufferCursor + 1))] }

def whileGuard (s : State) : Bool := decide (s.i < byteArrayLen)

def whileBody (s : State) : State := printLine (fillLine byteArray byteArrayLen s)

-- The memory that `TEE_Malloc` hands out is not cleared.
def utilsPrintByteArray (uninitialised : Mem) : State :=
  Loop.run (whileGuard byteArrayLen) (whileBody byteArray byteArrayLen) byteArrayLen
    ⟨0, 0, 0, uninitialised, [], []⟩

end Code

def digits (line : List UInt8) : List UInt8 := line.filter (· ≠ space)

-- `granted` says whether `TEE_Malloc` has found a block. Its result is not checked.
structure StaysInBuffer (granted : Bool) (byteArray : Mem) (byteArrayLen : Nat) (final : State) :
    Prop where
  terminates : whileGuard byteArrayLen final = false
  stores : ∀ index ∈ final.stores, granted = true ∧ index < bufferLen
  lines : final.lines.flatMap digits = (slice byteArray 0 byteArrayLen).flatMap hexPair
  perLine : ∀ line ∈ final.lines,
    (digits line).length ≤ UINT8_DIGIT_MAX_SIZE * MAX_NUMBER_OF_BYTES_PER_LINE

section Text

theorem byteText_eq (b : UInt8) : byteText b = hexPair b ++ [space] := rfl

theorem hexDigit_ge {d : Nat} (h : d < 16) : 48 ≤ (hexDigit d).toNat := by
  unfold hexDigit
  split
  · simp only [UInt8.toNat_ofNat']
    omega
  · simp only [UInt8.toNat_ofNat']
    omega

-- A digit is neither the terminator nor a space.
theorem ge_of_mem_hexPair {b c : UInt8} (h : c ∈ hexPair b) : 48 ≤ c.toNat := by
  have hb := b.toNat_lt
  simp only [hexPair, List.mem_cons, List.not_mem_nil, or_false] at h
  rcases h with rfl | rfl
  · exact hexDigit_ge (by omega)
  · exact hexDigit_ge (by omega)

def lineText (bytes : List UInt8) : List UInt8 := bytes.flatMap byteText

theorem length_lineText (bytes : List UInt8) : (lineText bytes).length = 3 * bytes.length := by
  induction bytes with
  | nil => rfl
  | cons b rest ih =>
      simp only [lineText, List.flatMap_cons, List.length_append, List.length_cons] at ih ⊢
      rw [ih]
      simp only [byteText_eq, hexPair, List.length_append, List.length_cons, List.length_nil]
      omega

theorem zero_notMem_lineText (bytes : List UInt8) : 0 ∉ lineText bytes := by
  intro h
  obtain ⟨b, -, hb⟩ := List.mem_flatMap.mp h
  rw [byteText_eq, List.mem_append, List.mem_singleton] at hb
  rcases hb with hpair | hspace
  · have hge := ge_of_mem_hexPair hpair
    exact absurd hge (by decide)
  · exact absurd hspace (by decide)

theorem digits_append (first second : List UInt8) :
    digits (first ++ second) = digits first ++ digits second := List.filter_append ..

theorem digits_hexPair (b : UInt8) : digits (hexPair b) = hexPair b := by
  rw [digits, List.filter_eq_self]
  intro c hc
  have hge := ge_of_mem_hexPair hc
  simp only [ne_eq, decide_eq_true_eq]
  rintro rfl
  exact absurd hge (by decide)

theorem digits_lineText (bytes : List UInt8) : digits (lineText bytes) = bytes.flatMap hexPair := by
  induction bytes with
  | nil => rfl
  | cons b rest ih =>
      have hspace : digits [space] = [] := by decide
      simp only [lineText, List.flatMap_cons, byteText_eq, digits_append, digits_hexPair,
        hspace, List.append_nil] at ih ⊢
      rw [ih]

-- Only the space behind the last of fifty bytes does not fit.
theorem digits_take_lineText {bytes : List UInt8} (h : bytes.length ≤ 50) :
    digits ((lineText bytes).take 149) = bytes.flatMap hexPair := by
  rcases List.eq_nil_or_concat bytes with rfl | ⟨init, b, rfl⟩
  · rfl
  · rw [List.concat_eq_append] at h ⊢
    have hsplit : lineText (init ++ [b]) = lineText init ++ hexPair b ++ [space] := by
      simp [lineText, byteText_eq]
    have hlength : (lineText init ++ hexPair b).length ≤ 149 := by
      simp only [List.length_append, length_lineText, hexPair, List.length_cons,
        List.length_nil] at h ⊢
      omega
    have hspace : ∀ count, digits ([space].take count) = [] := by
      intro count
      cases count <;> simp [digits]
    rw [hsplit, List.take_append, List.take_of_length_le hlength, digits_append, hspace,
      digits_append, digits_lineText, digits_hexPair, List.append_nil, List.flatMap_append,
      List.flatMap_singleton]

end Text

section Line

variable {byteArray : Mem} {byteArrayLen : Nat} {s0 s : State}

-- The `for` loop, started at `s0` with an empty line. The text fits but for the space of a
-- fiftieth byte.
structure Filling (byteArray : Mem) (byteArrayLen : Nat) (s0 s : State) : Prop where
  count : s.i = s0.i + s.bytesOnLine
  cursor : s.bufferCursor = 3 * s.bytesOnLine
  atMost : s.bytesOnLine ≤ 50
  within : s.i ≤ byteArrayLen
  text : slice s.buffer 0 (min 149 (3 * s.bytesOnLine)) =
    (lineText (slice byteArray s0.i s.bytesOnLine)).take 149
  ended : s.bytesOnLine = 50 → s.buffer 149 = 0
  stores : ∃ indices, s.stores = s0.stores ++ indices ∧ ∀ index ∈ indices, index < bufferLen
  lines : s.lines = s0.lines

theorem Filling.start (h : s0.i ≤ byteArrayLen) :
    Filling byteArray byteArrayLen s0 { s0 with bufferCursor := 0, bytesOnLine := 0 } where
  count := rfl
  cursor := rfl
  atMost := Nat.zero_le _
  within := h
  text := rfl
  ended := by simp
  stores := ⟨[], by simp⟩
  lines := rfl

-- A text that is stored with its terminator behind a filled front extends it.
theorem slice_write_text (mem : Mem) (offset : Nat) (text : List UInt8) :
    slice (write mem offset (text ++ [0])) 0 (offset + text.length) = slice mem 0 offset ++ text ∧
      write mem offset (text ++ [0]) (offset + text.length) = 0 := by
  have hfront := slice_write_front mem offset (text ++ [0])
  rw [List.length_append, List.length_singleton, ← Nat.add_assoc, slice_add, ← List.append_assoc]
    at hfront
  obtain ⟨htext, hend⟩ := List.append_inj hfront (by simp)
  exact ⟨htext, by simpa [slice] using hend⟩

theorem forBody_bytesOnLine (byteArray : Mem) (s : State) :
    (forBody byteArray s).bytesOnLine = s.bytesOnLine + 1 := by
  simp only [forBody, State.snprintf]
  split
  · rfl
  · rfl

-- The characters that a round stores, without their terminator.
def stored (byteArray : Mem) (s : State) : List UInt8 :=
  truncated (150 - 3 * s.bytesOnLine) (byteText (byteArray s.i))

theorem length_stored (byteArray : Mem) (s : State) :
    (stored byteArray s).length = min (149 - 3 * s.bytesOnLine) 3 := by
  have htext : (byteText (byteArray s.i)).length = 3 := rfl
  rw [stored, truncated, List.length_take, htext]
  omega

theorem forBody_eq (byteArray : Mem) {s : State} (hroom : s.bytesOnLine < 50)
    (hcursor : s.bufferCursor = 3 * s.bytesOnLine) :
    forBody byteArray s =
      { s with
        i := s.i + 1
        bytesOnLine := s.bytesOnLine + 1
        bufferCursor := s.bufferCursor + 3
        buffer := write s.buffer s.bufferCursor (stored byteArray s ++ [0])
        stores := s.stores ++
          (List.range ((stored byteArray s).length + 1)).map fun k => s.bufferCursor + k } := by
  have hsize : sizeT (bufferLen - s.bufferCursor) = 150 - 3 * s.bytesOnLine := by
    have hlen : bufferLen = 150 := rfl
    rw [sizeT, hlen, hcursor]
    omega
  rw [forBody, State.snprintf, hsize, if_neg (by omega)]
  rfl

-- The text in the buffer grows by what is stored.
theorem Filling.next_text (h : Filling byteArray byteArrayLen s0 s) (hroom : s.bytesOnLine < 50) :
    (lineText (slice byteArray s0.i s.bytesOnLine)).take 149 ++ stored byteArray s =
      (lineText (slice byteArray s0.i (s.bytesOnLine + 1))).take 149 := by
  have hlength : (lineText (slice byteArray s0.i s.bytesOnLine)).length = 3 * s.bytesOnLine := by
    rw [length_lineText, slice_length]
  have hnext : lineText (slice byteArray s0.i (s.bytesOnLine + 1)) =
      lineText (slice byteArray s0.i s.bytesOnLine) ++ byteText (byteArray s.i) := by
    rw [slice_add, h.count]
    simp [lineText, slice]
  have hroom' : 150 - 3 * s.bytesOnLine - 1 = 149 - 3 * s.bytesOnLine := by omega
  rw [hnext, List.take_append, hlength, stored, truncated, hroom']

theorem Filling.next (hguard : forGuard byteArrayLen s = true)
    (h : Filling byteArray byteArrayLen s0 s) :
    Filling byteArray byteArrayLen s0 (forBody byteArray s) := by
  obtain ⟨hroom, hmore⟩ := of_decide_eq_true hguard
  unfold MAX_NUMBER_OF_BYTES_PER_LINE at hroom
  have hcursor := h.cursor
  have hlength := length_stored byteArray s
  obtain ⟨hslice, hzero⟩ := slice_write_text s.buffer s.bufferCursor (stored byteArray s)
  rw [forBody_eq byteArray hroom hcursor]
  constructor
  case count =>
    have hcount := h.count
    dsimp only
    omega
  case cursor =>
    dsimp only
    omega
  case atMost => exact hroom
  case within => exact hmore
  case text =>
    have hbefore : min 149 (3 * s.bytesOnLine) = s.bufferCursor := by omega
    have hafter : min 149 (3 * (s.bytesOnLine + 1)) =
        s.bufferCursor + (stored byteArray s).length := by omega
    rw [hafter, hslice, ← h.next_text hroom, ← h.text, hbefore]
  case ended =>
    intro hfull
    have hend : s.bufferCursor + (stored byteArray s).length = 149 := by
      dsimp only at hfull
      omega
    rwa [hend] at hzero
  case stores =>
    obtain ⟨indices, hstores, hbound⟩ := h.stores
    refine ⟨indices ++ (List.range ((stored byteArray s).length + 1)).map fun k =>
      s.bufferCursor + k, ?_, ?_⟩
    · dsimp only
      rw [hstores, List.append_assoc]
    · intro index hindex
      rcases List.mem_append.mp hindex with hold | hnew
      · exact hbound index hold
      · obtain ⟨k, hk, rfl⟩ := List.mem_map.mp hnew
        have hlen : bufferLen = 150 := rfl
        rw [List.mem_range] at hk
        omega
  case lines => exact h.lines

theorem fillLine_filling (h : s.i ≤ byteArrayLen) :
    Filling byteArray byteArrayLen s (fillLine byteArray byteArrayLen s) :=
  Loop.run_invariant (fun _ hguard hfilling => hfilling.next hguard) _ (Filling.start h)

-- The line ends at its fiftieth byte or with the array.
theorem fillLine_done (h : s.i ≤ byteArrayLen) :
    (fillLine byteArray byteArrayLen s).bytesOnLine =
      min MAX_NUMBER_OF_BYTES_PER_LINE (byteArrayLen - s.i) := by
  have hfilling := @fillLine_filling byteArray byteArrayLen s h
  have hdone : forGuard byteArrayLen (fillLine byteArray byteArrayLen s) = false := by
    apply Loop.run_done (fun s => MAX_NUMBER_OF_BYTES_PER_LINE - s.bytesOnLine)
      (fun _ hguard hfilling => hfilling.next hguard) ?_ (Filling.start h) (Nat.sub_le _ _)
    intro t hguard _
    have hroom := (of_decide_eq_true hguard).1
    have hround := forBody_bytesOnLine byteArray t
    omega
  have hcount := hfilling.count
  have hatMost := hfilling.atMost
  have hwithin := hfilling.within
  have hstop := of_decide_eq_false hdone
  unfold MAX_NUMBER_OF_BYTES_PER_LINE at hstop ⊢
  omega

-- A string in memory ends at its first terminator.
theorem stringText_slice {mem : Mem} {text : List UInt8} {length bound : Nat}
    (htext : slice mem 0 length = text) (hend : mem length = 0) (hzero : 0 ∉ text)
    (hbound : length < bound) : stringText none (slice mem 0 bound) = text := by
  obtain ⟨rest, rfl⟩ := Nat.exists_eq_add_of_lt hbound
  have hrest : slice mem length (rest + 1) = 0 :: slice mem (length + 1) rest := by
    rw [Nat.add_comm rest, slice_add]
    simp [slice, hend]
  rw [Nat.add_assoc, slice_add, Nat.zero_add, htext, hrest]
  simp only [stringText]
  rw [takeWhile_ne_zero hzero]
  simp

-- The terminator cuts the line where the text in the buffer ends.
theorem Filling.printed (h : Filling byteArray byteArrayLen s0 s) :
    stringText none (slice (write s.buffer s.bufferCursor [0]) 0 (s.bufferCursor + 1)) =
      (lineText (slice byteArray s0.i s.bytesOnLine)).take 149 := by
  have hcursor := h.cursor
  have hatMost := h.atMost
  have hzero : 0 ∉ (lineText (slice byteArray s0.i s.bytesOnLine)).take 149 :=
    fun hmem => zero_notMem_lineText _ (List.mem_of_mem_take hmem)
  have hend : min 149 (3 * s.bytesOnLine) < s.bufferCursor + 1 := by omega
  apply stringText_slice ?_ ?_ hzero hend
  · rw [← h.text, slice_eq_iff]
    intro k hk
    rw [write, if_neg (by omega)]
  · by_cases hfull : s.bytesOnLine = 50
    · rw [hcursor, hfull, write, if_neg (by omega)]
      exact h.ended hfull
    · rw [hcursor, show min 149 (3 * s.bytesOnLine) = 3 * s.bytesOnLine by omega, write,
        if_pos (by simp)]
      simp

-- What a round of the `while` loop adds: a line with the digits of its bytes, and stores of
-- which the last is at the end of the line.
structure LineAdded (byteArray : Mem) (byteArrayLen : Nat) (s0 s : State) : Prop where
  count : s.i = s0.i + min 50 (byteArrayLen - s0.i)
  lines : ∃ line, s.lines = s0.lines ++ [line] ∧
    digits line = (slice byteArray s0.i (min 50 (byteArrayLen - s0.i))).flatMap hexPair
  stores : ∃ indices, s.stores = s0.stores ++ indices ++ [3 * min 50 (byteArrayLen - s0.i)] ∧
    ∀ index ∈ indices, index < bufferLen

theorem whileBody_lineAdded (h : s.i ≤ byteArrayLen) :
    LineAdded byteArray byteArrayLen s (whileBody byteArray byteArrayLen s) := by
  have hfilling := @fillLine_filling byteArray byteArrayLen s h
  have hdone := @fillLine_done byteArray byteArrayLen s h
  have hcursor := hfilling.cursor
  rw [hdone] at hcursor
  constructor
  case count =>
    have hcount := hfilling.count
    rw [hdone] at hcount
    exact hcount
  case stores =>
    obtain ⟨indices, hstores, hbound⟩ := hfilling.stores
    refine ⟨indices, ?_, hbound⟩
    simp only [whileBody, printLine, hstores, hcursor]
    rfl
  case lines =>
    refine ⟨_, congrArg (· ++ [_]) hfilling.lines, ?_⟩
    rw [hfilling.printed, hdone]
    apply digits_take_lineText
    rw [slice_length]
    exact Nat.min_le_left _ _

end Line

section Dump

variable {byteArray : Mem} {byteArrayLen : Nat} {s : State}

-- The `while` loop between two lines. A store behind the buffer is made for every full line.
structure Dumped (byteArray : Mem) (byteArrayLen : Nat) (s : State) : Prop where
  within : s.i ≤ byteArrayLen
  whole : s.i = 0 ∨ s.i = byteArrayLen ∨ 50 ≤ s.i
  lines : s.lines.flatMap digits = (slice byteArray 0 s.i).flatMap hexPair
  perLine : ∀ line ∈ s.lines, (digits line).length ≤ 100
  inside : s.i < 50 → ∀ index ∈ s.stores, index < bufferLen
  behind : 50 ≤ s.i → bufferLen ∈ s.stores
  started : 0 < s.i → s.stores ≠ []

theorem length_flatMap_hexPair (bytes : List UInt8) :
    (bytes.flatMap hexPair).length = 2 * bytes.length := by
  induction bytes with
  | nil => rfl
  | cons b rest ih =>
      rw [List.flatMap_cons, List.length_append, ih, List.length_cons]
      simp only [hexPair, List.length_cons, List.length_nil]
      omega

theorem Dumped.next (hguard : whileGuard byteArrayLen s = true)
    (h : Dumped byteArray byteArrayLen s) :
    Dumped byteArray byteArrayLen (whileBody byteArray byteArrayLen s) := by
  have hmore : s.i < byteArrayLen := of_decide_eq_true hguard
  have hwhole := h.whole
  obtain ⟨hcount, ⟨line, hlines, hdigits⟩, ⟨indices, hstores, hbound⟩⟩ :=
    @whileBody_lineAdded byteArray byteArrayLen s h.within
  constructor
  case within => omega
  case whole => omega
  case lines =>
    rw [hlines, List.flatMap_append, h.lines, hcount, slice_add, List.flatMap_append,
      Nat.zero_add, ← hdigits, List.flatMap_singleton]
  case perLine =>
    intro other hother
    rw [hlines, List.mem_append, List.mem_singleton] at hother
    rcases hother with hold | rfl
    · exact h.perLine other hold
    · rw [hdigits, length_flatMap_hexPair, slice_length]
      omega
  case inside =>
    intro hshort index hindex
    have hlen : bufferLen = 150 := rfl
    rw [hstores, List.append_assoc, List.mem_append, List.mem_append, List.mem_singleton] at hindex
    rcases hindex with hold | hnew | rfl
    · exact h.inside (by omega) index hold
    · exact hbound index hnew
    · omega
  case behind =>
    intro hlong
    rw [hstores, List.append_assoc, List.mem_append, List.mem_append, List.mem_singleton]
    by_cases hfirst : s.i = 0
    · right
      right
      have hlen : bufferLen = 150 := rfl
      omega
    · exact Or.inl (h.behind (by omega))
  case started =>
    intro _
    simp [hstores]

theorem Dumped.start (byteArray : Mem) (byteArrayLen : Nat) (uninitialised : Mem) :
    Dumped byteArray byteArrayLen ⟨0, 0, 0, uninitialised, [], []⟩ :=
  ⟨Nat.zero_le _, Or.inl rfl, rfl, by simp, by simp, by simp, by simp⟩

variable (byteArray) (byteArrayLen) (uninitialised : Mem)

theorem dumped :
    Dumped byteArray byteArrayLen (utilsPrintByteArray byteArray byteArrayLen uninitialised) :=
  Loop.run_invariant (fun _ hguard hdumped => hdumped.next hguard) _ (Dumped.start ..)

theorem terminates :
    whileGuard byteArrayLen (utilsPrintByteArray byteArray byteArrayLen uninitialised) = false := by
  apply Loop.run_done (fun s => byteArrayLen - s.i)
    (fun _ hguard hdumped => hdumped.next hguard) ?_ (Dumped.start ..) (Nat.le_refl _)
  intro s hguard hdumped
  have hmore : s.i < byteArrayLen := of_decide_eq_true hguard
  have hcount := (@whileBody_lineAdded byteArray byteArrayLen s hdumped.within).count
  omega

-- Everything but the stores is right for every array.
theorem lines_utilsPrintByteArray :
    (utilsPrintByteArray byteArray byteArrayLen uninitialised).i = byteArrayLen ∧
      (utilsPrintByteArray byteArray byteArrayLen uninitialised).lines.flatMap digits =
        (slice byteArray 0 byteArrayLen).flatMap hexPair := by
  have hdumped := dumped byteArray byteArrayLen uninitialised
  have hdone := of_decide_eq_false (terminates byteArray byteArrayLen uninitialised)
  have hwithin := hdumped.within
  have hend : (utilsPrintByteArray byteArray byteArrayLen uninitialised).i = byteArrayLen := by
    omega
  refine ⟨hend, ?_⟩
  rw [hdumped.lines, hend]

end Dump

-- The dump stays in its buffer exactly when there is nothing to dump, or it fits on less than a
-- full line and the buffer was allocated.
theorem staysInBuffer_iff (granted : Bool) (byteArray : Mem) (byteArrayLen : Nat)
    (uninitialised : Mem) :
    StaysInBuffer granted byteArray byteArrayLen
        (utilsPrintByteArray byteArray byteArrayLen uninitialised) ↔
      byteArrayLen = 0 ∨ (byteArrayLen < 50 ∧ granted = true) := by
  have hdumped := dumped byteArray byteArrayLen uninitialised
  obtain ⟨hend, hlines⟩ := lines_utilsPrintByteArray byteArray byteArrayLen uninitialised
  constructor
  · intro h
    by_cases hempty : byteArrayLen = 0
    · exact Or.inl hempty
    · right
      obtain ⟨index, hindex⟩ := List.exists_mem_of_ne_nil _ (hdumped.started (by omega))
      refine ⟨?_, (h.stores index hindex).1⟩
      by_contra hlong
      exact absurd (h.stores _ (hdumped.behind (by omega))).2 (Nat.lt_irrefl _)
  · intro h
    refine ⟨terminates .., ?_, hlines, hdumped.perLine⟩
    intro index hindex
    rcases h with rfl | ⟨hshort, hgranted⟩
    · cases hindex
    · exact ⟨hgranted, hdumped.inside (by omega) index hindex⟩

-- A dump of the first message, which the attester makes when its signature is invalid.
theorem msg1_leaves_buffer :
    ¬ StaysInBuffer true (fun _ => 0) (sizeof Wire.Attester.msg1)
      (utilsPrintByteArray (fun _ => 0) (sizeof Wire.Attester.msg1) fun _ => 0) := by
  intro h
  obtain ⟨hend, -⟩ := lines_utilsPrintByteArray (fun _ => 0) (sizeof Wire.Attester.msg1) fun _ => 0
  have hlong : 50 ≤ sizeof Wire.Attester.msg1 := by decide
  have hbehind := (dumped (fun _ => 0) (sizeof Wire.Attester.msg1) fun _ => 0).behind
    (by rwa [hend])
  exact absurd (h.stores bufferLen hbehind).2 (Nat.lt_irrefl _)

-- The block for the text takes every store of a dump of so many bytes.
def TextInside (byteArrayLen : Nat) : Prop :=
  ∀ byteArray uninitialised,
    ∀ index ∈ (utilsPrintByteArray byteArray byteArrayLen uninitialised).stores, index < bufferLen

theorem textInside_iff (byteArrayLen : Nat) : TextInside byteArrayLen ↔ byteArrayLen < 50 := by
  have hend : ∀ byteArray uninitialised,
      (utilsPrintByteArray byteArray byteArrayLen uninitialised).i = byteArrayLen :=
    fun byteArray uninitialised =>
      (lines_utilsPrintByteArray byteArray byteArrayLen uninitialised).1
  constructor
  · intro h
    by_contra hlong
    have hbehind := (dumped (fun _ => 0) byteArrayLen fun _ => 0).behind (by rw [hend]; omega)
    exact absurd (h _ _ _ hbehind) (Nat.lt_irrefl _)
  · intro hshort byteArray uninitialised
    exact (dumped byteArray byteArrayLen uninitialised).inside (by rw [hend]; omega)

-- The verifier's copy of `utils_print_byte_array`, which makes the text block as long as the text
-- and prints one line.
namespace Verifier

def bufferLen (byteArrayLen : Nat) : Nat := UINT8_DIGIT_MAX_SIZE * byteArrayLen + byteArrayLen

section Code

variable (byteArray : Mem) (byteArrayLen : Nat)

def forGuard (s : State) : Bool := decide (s.i < byteArrayLen)

def forBody (s : State) : State :=
  let s := s.snprintf (sizeT (bufferLen byteArrayLen - s.bufferCursor)) (byteText (byteArray s.i))
  { s with i := s.i + 1 }

def fillLine (uninitialised : Mem) : State :=
  Loop.run (forGuard byteArrayLen) (forBody byteArray byteArrayLen) byteArrayLen
    ⟨0, 0, 0, uninitialised, [], []⟩

def utilsPrintByteArray (uninitialised : Mem) : State :=
  printLine (fillLine byteArray byteArrayLen uninitialised)

end Code

def TextInside (byteArrayLen : Nat) : Prop :=
  ∀ byteArray uninitialised,
    ∀ index ∈ (utilsPrintByteArray byteArray byteArrayLen uninitialised).stores,
      index < bufferLen byteArrayLen

section Line

variable {byteArray : Mem} {byteArrayLen : Nat} {s : State}

-- Each byte takes three places of the line, also the one whose space is cut off.
structure Filling (byteArrayLen : Nat) (s : State) : Prop where
  within : s.i ≤ byteArrayLen
  cursor : s.bufferCursor = 3 * s.i

theorem forBody_i : (forBody byteArray byteArrayLen s).i = s.i + 1 := by
  unfold forBody State.snprintf
  split
  · rfl
  · rfl

theorem forBody_bufferCursor :
    (forBody byteArray byteArrayLen s).bufferCursor = s.bufferCursor + 3 := by
  unfold forBody State.snprintf
  split
  · rfl
  · rfl

theorem Filling.next (hguard : forGuard byteArrayLen s = true) (h : Filling byteArrayLen s) :
    Filling byteArrayLen (forBody byteArray byteArrayLen s) := by
  have hmore : s.i < byteArrayLen := of_decide_eq_true hguard
  have hcursor := h.cursor
  constructor
  · rw [forBody_i]
    omega
  · rw [forBody_i, forBody_bufferCursor]
    omega

theorem Filling.start (byteArrayLen : Nat) (uninitialised : Mem) :
    Filling byteArrayLen ⟨0, 0, 0, uninitialised, [], []⟩ :=
  ⟨Nat.zero_le _, rfl⟩

variable (byteArray byteArrayLen) (uninitialised : Mem)

theorem fillLine_cursor :
    (fillLine byteArray byteArrayLen uninitialised).bufferCursor = bufferLen byteArrayLen := by
  have hfilling : Filling byteArrayLen (fillLine byteArray byteArrayLen uninitialised) :=
    Loop.run_invariant (fun _ hguard hs => hs.next hguard) _ (Filling.start ..)
  have hdone : forGuard byteArrayLen (fillLine byteArray byteArrayLen uninitialised) = false := by
    apply Loop.run_done (fun s => byteArrayLen - s.i) (fun _ hguard hs => hs.next hguard) ?_
      (Filling.start ..) (Nat.le_refl _)
    intro s hguard _
    have hmore : s.i < byteArrayLen := of_decide_eq_true hguard
    have hround := @forBody_i byteArray byteArrayLen s
    omega
  have hstop := of_decide_eq_false hdone
  have hwithin := hfilling.within
  rw [hfilling.cursor, bufferLen, UINT8_DIGIT_MAX_SIZE]
  omega

end Line

-- The terminator of the text always goes behind the block.
theorem not_textInside (byteArrayLen : Nat) : ¬ TextInside byteArrayLen := by
  intro h
  have hstore := h (fun _ => 0) (fun _ => 0) (bufferLen byteArrayLen) (by
    rw [utilsPrintByteArray, printLine, fillLine_cursor]
    exact List.mem_append_right _ (List.mem_singleton_self _))
  exact absurd hstore (Nat.lt_irrefl _)

end Verifier

end Watz.HexDump
