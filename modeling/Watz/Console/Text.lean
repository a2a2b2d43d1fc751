import Watz.Base.Format
import Watz.Console

namespace Watz.Console

open Base Base.Layout Base.Format Output

def FIXED_BUFFER_SIZE : Nat := 1 <<< 9

-- The format "%.*s" that `writev` passes.
def consoleFormat : List UInt8 := [percent, dot, asterisk, letterS]

-- `nchars` is a `size_t`, and the precision takes an `int`. A negative one counts as none.
def precisionOf (nchars : Nat) : Option Nat :=
  let precision := (BitVec.ofNat 32 nchars).toInt
  if precision < 0 then none else some precision.toNat

def printString (nchars : Nat) (memory : List UInt8) (d : Directive) : List UInt8 :=
  if d.precision = some .argument ∧ d.conversion = some letterS then
    stringText (precisionOf nchars) memory
  else []

-- The contents of `msg` after `vsnprintf`.
def message (nchars : Nat) (memory : List UInt8) : List UInt8 :=
  truncated FIXED_BUFFER_SIZE (output (printString nchars memory) consoleFormat)

-- What a call of the logger does with its format: the text, the directives it finds and the
-- arguments that they take.
structure Logged where
  text : List UInt8
  directives : List Directive
  argumentsRead : Nat

-- `IMSG(msg)` has no further argument, so what a conversion prints is anything.
def imsg (undefined : Directive → List UInt8) (format : List UInt8) : Logged :=
  ⟨output undefined format, directives format, argumentsRead format⟩

def osPrintf (undefined : Directive → List UInt8) (nchars : Nat) (memory : List UInt8) : Logged :=
  imsg undefined (message nchars memory)

variable (m : GuestMemory) (r : FdWrite) (grants : Grants)

-- The log line of one call. A copy beyond the staging block ends in a fault or in the memory
-- of others, and is no line that anything can be said of.
def consoleLine (behind : List UInt8) (undefined : Directive → List UInt8) : Option Logged :=
  (wasiFdWrite m r grants 0).bind fun written =>
    if (written.1.copies.map Prod.snd).sum ≤ written.1.capacity grants.staging then
      some (osPrintf undefined written.1.result (assemble (iov m r) ++ behind))
    else none

-- The guest's bytes reach the log as they are, cut at 511 bytes.
def Verbatim : Prop :=
  ∀ behind undefined, ∃ logged, consoleLine m r grants behind undefined = some logged ∧
    logged.text = (assemble (iov m r)).take (FIXED_BUFFER_SIZE - 1) ∧
    logged.directives = [] ∧ logged.argumentsRead = 0

section Message

theorem output_consoleFormat (convert : Directive → List UInt8) :
    output convert consoleFormat =
      convert ⟨[], .digits [], some .argument, [], some letterS⟩ := by
  simp [output, piecesOf, consoleFormat, pieces, directive, amount, Format.precision, Piece.output,
    isFlag, isDigit, isLength, percent, dot, asterisk, letterS]

theorem precisionOf_of_lt {nchars : Nat} (h : nchars < 2 ^ 31) :
    precisionOf nchars = some nchars := by
  have hint : (BitVec.ofNat 32 nchars).toInt = nchars := by
    rw [BitVec.toInt_eq_toNat_cond, BitVec.toNat_ofNat, Nat.mod_eq_of_lt (by omega), if_pos]
    omega
  rw [precisionOf, hint, if_neg (by omega), Int.toNat_natCast]

theorem precisionOf_of_le {nchars : Nat} (h : 2 ^ 31 ≤ nchars) (hword : nchars < 2 ^ 32) :
    precisionOf nchars = none := by
  have hint : (BitVec.ofNat 32 nchars).toInt < 0 := by
    rw [BitVec.toInt_eq_toNat_cond, BitVec.toNat_ofNat, Nat.mod_eq_of_lt (by omega), if_neg]
    · omega
    · omega
  rw [precisionOf, if_pos hint]

-- The first of the two formats copies a string without NUL.
theorem message_eq {text : List UInt8} (hnul : 0 ∉ text) (hword : text.length < 2 ^ 32)
    (behind : List UInt8) :
    message text.length (text ++ behind) = text.take (FIXED_BUFFER_SIZE - 1) := by
  have hsize : FIXED_BUFFER_SIZE = 512 := rfl
  rw [message, output_consoleFormat, printString, if_pos ⟨rfl, rfl⟩, truncated]
  by_cases hint : text.length < 2 ^ 31
  · rw [precisionOf_of_lt hint, stringText, takeWhile_ne_zero hnul]
    simp
  · rw [precisionOf_of_le (by omega) hword, stringText, takeWhile_ne_zero hnul,
      List.take_append_of_le_length (by omega)]

end Message

section Lines

theorem nchars_iov : nchars (iov m r) = total m r := by
  simp [nchars, iov, total, Function.comp_def]

variable {m r grants}

theorem length_text : (assemble (iov m r)).length = total m r := by
  rw [length_assemble, nchars_iov]

-- A call that gets to `writev` writes its line if the staging block takes its bytes.
theorem consoleLine_eq (h : Reaches m r grants) (behind : List UInt8)
    (undefined : Directive → List UInt8) :
    consoleLine m r grants behind undefined =
      if total m r < 2 ^ 32 ∧ (grants.staging = true ∨ total m r = 0) then
        some (osPrintf undefined (total m r) (assemble (iov m r) ++ behind))
      else none := by
  have hcount : countChars ((iovecs m r).map Prod.snd) = total m r := countChars_eq (total_lt h.2.1)
  obtain ⟨htiles, hiter⟩ := copyChars_tiles ((iovecs m r).map Prod.snd)
  have hstaged : ((copyChars ((iovecs m r).map Prod.snd)).copies.map Prod.snd).sum = total m r :=
    htiles.staged.trans hiter
  have hroom : total m r ≤ (if grants.staging then total m r % 2 ^ 32 else 0) ↔
      total m r < 2 ^ 32 ∧ (grants.staging = true ∨ total m r = 0) := by
    cases grants.staging with
    | true =>
        simp only [if_true, true_or, and_true]
        omega
    | false =>
        simp only [Bool.false_eq_true, if_false, false_or]
        omega
  rw [consoleLine, wasiFdWrite_of_reaches h, Option.bind_some]
  simp only [writevSizes, Sizes.capacity, hcount, hstaged, hroom]

-- A line is the guest's text exactly when its bytes get to the staging block and there is no
-- percent sign among the first 511 of them.
theorem verbatim_iff (hreaches : Reaches m r grants) (hnul : 0 ∉ assemble (iov m r)) :
    Verbatim m r grants ↔
      (total m r < 2 ^ 32 ∧ (grants.staging = true ∨ total m r = 0)) ∧
        percent ∉ (assemble (iov m r)).take (FIXED_BUFFER_SIZE - 1) := by
  unfold Verbatim
  simp only [consoleLine_eq hreaches]
  by_cases hroom : total m r < 2 ^ 32 ∧ (grants.staging = true ∨ total m r = 0)
  · have hmessage : ∀ behind, message (total m r) (assemble (iov m r) ++ behind) =
        (assemble (iov m r)).take (FIXED_BUFFER_SIZE - 1) := by
      intro behind
      rw [← length_text]
      exact message_eq hnul (by rw [length_text]; exact hroom.1) behind
    simp only [if_pos hroom, Option.some.injEq, exists_eq_left', osPrintf, imsg, hmessage]
    constructor
    · intro h
      exact ⟨hroom, (directives_eq_nil_iff _).mp (h [] fun _ => []).2.1⟩
    · rintro ⟨-, hplain⟩ - undefined
      exact ⟨output_of_plain hplain undefined, (directives_eq_nil_iff _).mpr hplain,
        argumentsRead_of_plain hplain⟩
  · simp only [if_neg hroom]
    constructor
    · intro h
      obtain ⟨logged, hline, -⟩ := h [] fun _ => []
      cases hline
    · rintro ⟨hgranted, -⟩
      exact absurd hgranted hroom

end Lines

section Example

-- A memory with one entry, the place for the count and a short text.
def textMemory (text : List UInt8) : GuestMemory :=
  ⟨64, ofList ([16, 0, 0, 0, UInt8.ofNat text.length, 0, 0, 0] ++ List.replicate 8 0 ++ text),
    by decide⟩

def textWrite : FdWrite := ⟨.stdout, 0, 1, 8⟩

theorem reaches_of_checks {m : GuestMemory} {r : FdWrite}
    (h : (pointersValid m r && validated m r) = true) : Reaches m r ⟨true, true⟩ := by
  rw [Bool.and_eq_true] at h
  exact ⟨h.1, h.2, rfl⟩

-- The guest prints "%s".
theorem directive_reaches_logger :
    Reaches (textMemory [percent, letterS]) textWrite ⟨true, true⟩ ∧
      assemble (iov (textMemory [percent, letterS]) textWrite) = [percent, letterS] ∧
      (consoleLine (textMemory [percent, letterS]) textWrite ⟨true, true⟩ [] fun _ => []).map
        Logged.argumentsRead = some 1 ∧
      ¬ Verbatim (textMemory [percent, letterS]) textWrite ⟨true, true⟩ := by
  have hread : (consoleLine (textMemory [percent, letterS]) textWrite ⟨true, true⟩ []
      fun _ => []).map Logged.argumentsRead = some 1 := by decide +kernel
  refine ⟨reaches_of_checks (by decide +kernel), by decide +kernel, hread, fun h => ?_⟩
  obtain ⟨logged, hline, -, -, hnone⟩ := h [] fun _ => []
  rw [hline, Option.map_some, hnone] at hread
  cases hread

-- The guest prints "ok".
theorem verbatim_plain :
    0 ∉ assemble (iov (textMemory [111, 107]) textWrite) ∧
      Verbatim (textMemory [111, 107]) textWrite ⟨true, true⟩ := by
  have hnul : 0 ∉ assemble (iov (textMemory [111, 107]) textWrite) := by decide +kernel
  have hreaches : Reaches (textMemory [111, 107]) textWrite ⟨true, true⟩ :=
    reaches_of_checks (by decide +kernel)
  refine ⟨hnul, (verbatim_iff hreaches hnul).mpr ⟨⟨by decide +kernel, Or.inl rfl⟩, ?_⟩⟩
  decide +kernel

end Example

end Watz.Console
