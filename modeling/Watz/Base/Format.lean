import Mathlib.Algebra.Ring.Nat
import Mathlib.Data.List.Basic

namespace Watz.Base.Format

-- The bytes that the grammar of a format string names.
def percent : UInt8 := 37
def asterisk : UInt8 := 42
def dot : UInt8 := 46
def letterS : UInt8 := 115

def isFlag (b : UInt8) : Bool := [32, 35, 43, 45, 48].contains b

def isDigit (b : UInt8) : Bool := decide (48 ≤ b ∧ b ≤ 57)

def isLength (b : UInt8) : Bool := [76, 104, 106, 108, 116, 122].contains b

-- A field width or a precision: digits, or the next argument.
inductive Amount where
  | digits (value : List UInt8)
  | argument
  deriving DecidableEq, Repr

-- A conversion directive of `printf`. A format that ends in the middle of one has no
-- conversion character.
structure Directive where
  flags : List UInt8
  width : Amount
  precision : Option Amount
  length : List UInt8
  conversion : Option UInt8
  deriving DecidableEq, Repr

inductive Piece where
  | literal (byte : UInt8)
  | directive (d : Directive)
  deriving DecidableEq, Repr

def amount : List UInt8 → Amount × List UInt8
  | [] => (.digits [], [])
  | b :: rest =>
      if b = asterisk then (.argument, rest)
      else (.digits ((b :: rest).takeWhile isDigit), (b :: rest).dropWhile isDigit)

def precision : List UInt8 → Option Amount × List UInt8
  | [] => (none, [])
  | b :: rest => if b = dot then (some (amount rest).1, (amount rest).2) else (none, b :: rest)

-- What follows a percent sign, and the rest of the format.
def directive (bytes : List UInt8) : Directive × List UInt8 :=
  let width := amount (bytes.dropWhile isFlag)
  let prec := precision width.2
  let tail := prec.2.dropWhile isLength
  (⟨bytes.takeWhile isFlag, width.1, prec.1, prec.2.takeWhile isLength, tail.head?⟩, tail.tail)

def pieces : Nat → List UInt8 → List Piece
  | 0, _ => []
  | _ + 1, [] => []
  | fuel + 1, b :: rest =>
      if b = percent then .directive (directive rest).1 :: pieces fuel (directive rest).2
      else .literal b :: pieces fuel rest

def piecesOf (format : List UInt8) : List Piece := pieces format.length format

def Piece.directive? : Piece → Option Directive
  | literal _ => none
  | directive d => some d

def directives (format : List UInt8) : List Directive := (piecesOf format).filterMap Piece.directive?

-- The arguments that a directive takes.
def Amount.arguments : Amount → Nat
  | digits _ => 0
  | argument => 1

def Directive.arguments (d : Directive) : Nat :=
  d.width.arguments + (d.precision.map Amount.arguments).getD 0 +
    if d.conversion = some percent then 0 else 1

def argumentsRead (format : List UInt8) : Nat := ((directives format).map Directive.arguments).sum

-- The output of a format, given what each conversion prints.
def Piece.output (convert : Directive → List UInt8) : Piece → List UInt8
  | literal byte => [byte]
  | directive d => if d.conversion = some percent then [percent] else convert d

def output (convert : Directive → List UInt8) (format : List UInt8) : List UInt8 :=
  (piecesOf format).flatMap (Piece.output convert)

-- The text that `snprintf` leaves in an array of `size` bytes.
def truncated (size : Nat) (text : List UInt8) : List UInt8 := text.take (size - 1)

-- `%s`, with or without a precision, of the string that starts at this memory.
def stringText (precision : Option Nat) (memory : List UInt8) : List UInt8 :=
  let text := memory.takeWhile (· != 0)
  match precision with
  | some count => text.take count
  | none => text

section Parse

theorem pieces_of_plain {format : List UInt8} (h : percent ∉ format) {fuel : Nat}
    (hfuel : format.length ≤ fuel) : pieces fuel format = format.map .literal := by
  induction format generalizing fuel with
  | nil => cases fuel <;> rfl
  | cons b rest ih =>
      cases fuel with
      | zero => simp at hfuel
      | succ fuel =>
          have hb : b ≠ percent := fun heq => h (heq ▸ List.mem_cons_self)
          have hrest : percent ∉ rest := fun hmem => h (List.mem_cons_of_mem _ hmem)
          rw [pieces, if_neg hb, ih hrest (by simpa using hfuel), List.map_cons]

-- The first percent sign starts a directive.
theorem pieces_of_percent {format : List UInt8} (h : percent ∈ format) {fuel : Nat}
    (hfuel : format.length ≤ fuel) : ∃ d, .directive d ∈ pieces fuel format := by
  induction format generalizing fuel with
  | nil => simp at h
  | cons b rest ih =>
      cases fuel with
      | zero => simp at hfuel
      | succ fuel =>
          by_cases hb : b = percent
          · refine ⟨(directive rest).1, ?_⟩
            rw [pieces, if_pos hb]
            exact List.mem_cons_self
          · have hrest : percent ∈ rest := by
              rcases List.mem_cons.mp h with heq | hmem
              · exact absurd heq.symm hb
              · exact hmem
            obtain ⟨d, hd⟩ := ih hrest (by simpa using hfuel)
            refine ⟨d, ?_⟩
            rw [pieces, if_neg hb]
            exact List.mem_cons_of_mem _ hd

theorem directives_eq_nil_iff (format : List UInt8) :
    directives format = [] ↔ percent ∉ format := by
  constructor
  · intro hnil hmem
    obtain ⟨d, hd⟩ := pieces_of_percent hmem (Nat.le_refl format.length)
    have hfound : d ∈ directives format := List.mem_filterMap.mpr ⟨.directive d, hd, rfl⟩
    rw [hnil] at hfound
    cases hfound
  · intro hplain
    rw [directives, piecesOf, pieces_of_plain hplain (Nat.le_refl _), List.filterMap_map]
    simp [Piece.directive?]

-- A format without a percent sign is its own output, whatever conversions would print.
theorem output_of_plain {format : List UInt8} (h : percent ∉ format)
    (convert : Directive → List UInt8) : output convert format = format := by
  rw [output, piecesOf, pieces_of_plain h (Nat.le_refl _), List.flatMap_map]
  simp [Piece.output]

theorem argumentsRead_of_plain {format : List UInt8} (h : percent ∉ format) :
    argumentsRead format = 0 := by
  rw [argumentsRead, (directives_eq_nil_iff format).mpr h]
  rfl

end Parse

section StringText

theorem takeWhile_ne_zero {bytes : List UInt8} (h : 0 ∉ bytes) (rest : List UInt8) :
    (bytes ++ rest).takeWhile (· != 0) = bytes ++ rest.takeWhile (· != 0) := by
  rw [List.takeWhile_append_of_pos]
  intro b hb
  simp only [bne_iff_ne, ne_eq]
  exact fun hzero => h (hzero ▸ hb)

end StringText

end Watz.Base.Format
