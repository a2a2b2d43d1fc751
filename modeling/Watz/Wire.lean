import Watz.Base.Layout
import Watz.Messages

namespace Watz.Wire

open Base.Layout

-- The structures as the two headers declare them. A `size_t` has eight bytes on the target.
-- `ra_quote` is one type on both sides, from a header that is not part of the tree.
namespace Attester

def msg0 : List CType :=
  [.uint8Array (RA_ECDH_KEY_SIZE / 8), .uint32, .uint8Array (RA_ECDH_KEY_SIZE / 8), .uint32]

def msg1 : List CType :=
  [.uint8Array (RA_ECDH_KEY_SIZE / 8), .uint32, .uint8Array (RA_ECDH_KEY_SIZE / 8), .uint32,
    .uint8Array (RA_ECDSA_KEY_SIZE / 8), .uint32, .uint8Array (RA_ECDSA_KEY_SIZE / 8), .uint32,
    .uint8Array RA_SIGNATURE_SIZE, .uint8Array (RA_AES_CMAC_TAG_SIZE / 8)]

def msg2 (raQuote : CType) : List CType :=
  [.uint8Array (RA_ECDH_KEY_SIZE / 8), .sizeT, .uint8Array (RA_ECDH_KEY_SIZE / 8), .sizeT,
    raQuote, .uint8Array (RA_AES_CMAC_TAG_SIZE / 8)]

-- The flexible member `encrypted_content` adds nothing to the size.
def msg3 : List CType :=
  [.uint8Array RA_AES_GCM_IV_SIZE, .uint8Array (RA_AES_GCM_TAG_SIZE / 8), .sizeT]

end Attester

namespace Verifier

def msg0 : List CType :=
  [.uint8Array (RA_ECDH_KEY_SIZE / 8), .sizeT, .uint8Array (RA_ECDH_KEY_SIZE / 8), .sizeT]

def msg1 : List CType :=
  [.uint8Array (RA_ECDH_KEY_SIZE / 8), .sizeT, .uint8Array (RA_ECDH_KEY_SIZE / 8), .sizeT,
    .uint8Array (RA_ECDSA_KEY_SIZE / 8), .sizeT, .uint8Array (RA_ECDSA_KEY_SIZE / 8), .sizeT,
    .uint8Array RA_SIGNATURE_SIZE, .uint8Array (RA_AES_CMAC_TAG_SIZE / 8)]

def msg2 (raQuote : CType) : List CType :=
  [.uint8Array (RA_ECDH_KEY_SIZE / 8), .sizeT, .uint8Array (RA_ECDH_KEY_SIZE / 8), .sizeT,
    raQuote, .uint8Array (RA_AES_CMAC_TAG_SIZE / 8)]

def msg3 : List CType :=
  [.uint8Array RA_AES_GCM_IV_SIZE, .uint8Array (RA_AES_GCM_TAG_SIZE / 8), .sizeT]

end Verifier

-- The bytes of a sender's structure, with `rest` behind them in the receiving buffer, are
-- accepted by the receiver and give it the values that the sender's members have.
def Agrees (sender receiver : List CType) (mem : Mem) (rest : List UInt8) : Prop :=
  parse receiver (image sender mem ++ rest) = some (decode sender mem)

section Decoded

variable (mem : Mem)

theorem decode_attester_msg0 : decode Attester.msg0 mem =
    [.bytes (slice mem 0 32), .number (leNat (slice mem 32 4)),
      .bytes (slice mem 36 32), .number (leNat (slice mem 68 4))] := rfl

theorem decode_verifier_msg0 : decode Verifier.msg0 mem =
    [.bytes (slice mem 0 32), .number (leNat (slice mem 32 8)),
      .bytes (slice mem 40 32), .number (leNat (slice mem 72 8))] := rfl

theorem decode_attester_msg1 : decode Attester.msg1 mem =
    [.bytes (slice mem 0 32), .number (leNat (slice mem 32 4)),
      .bytes (slice mem 36 32), .number (leNat (slice mem 68 4)),
      .bytes (slice mem 72 32), .number (leNat (slice mem 104 4)),
      .bytes (slice mem 108 32), .number (leNat (slice mem 140 4)),
      .bytes (slice mem 144 64), .bytes (slice mem 208 16)] := rfl

theorem decode_verifier_msg1 : decode Verifier.msg1 mem =
    [.bytes (slice mem 0 32), .number (leNat (slice mem 32 8)),
      .bytes (slice mem 40 32), .number (leNat (slice mem 72 8)),
      .bytes (slice mem 80 32), .number (leNat (slice mem 112 8)),
      .bytes (slice mem 120 32), .number (leNat (slice mem 152 8)),
      .bytes (slice mem 160 64), .bytes (slice mem 224 16)] := rfl

-- The eight bytes of the verifier's first size field reach four bytes into the attester's
-- second coordinate, and every later member is shifted against its counterpart. The two
-- readings can only be equal when all of that is zero.
theorem decode_msg0_eq_iff :
    decode Verifier.msg0 mem = decode Attester.msg0 mem ↔ ZeroRange mem 36 80 := by
  simp only [decode_attester_msg0, decode_verifier_msg0, List.cons.injEq, FieldValue.bytes.injEq,
    FieldValue.number.injEq, and_true, true_and]
  constructor
  · rintro ⟨hxSize, hyRaw, hySize⟩
    have hupper : ZeroRange mem 36 40 := (leNat_widen 32 4 4).mp hxSize
    have hy : ZeroRange mem 36 72 := hupper.spread (by omega) (by omega)
      ((slice_eq_iff mem mem 40 36 32).mp hyRaw)
    exact hy.number (by omega) (by omega) hySize
  · intro hzero
    refine ⟨?_, ?_, ?_⟩
    · exact (leNat_widen 32 4 4).mpr fun i hlo hhi => hzero i (by omega) (by omega)
    · exact hzero.slice_eq (by omega) (by omega) (by omega) (by omega)
    · exact hzero.leNat_eq (by omega) (by omega) (by omega) (by omega)

theorem decode_msg1_eq_iff :
    decode Attester.msg1 mem = decode Verifier.msg1 mem ↔ ZeroRange mem 36 240 := by
  simp only [decode_attester_msg1, decode_verifier_msg1, List.cons.injEq, FieldValue.bytes.injEq,
    FieldValue.number.injEq, and_true, true_and]
  constructor
  · rintro ⟨hxSize, hyRaw, hySize, hvkX, hvkXSize, hvkY, hvkYSize, hsignature, hmac⟩
    have h40 : ZeroRange mem 36 40 := (leNat_widen 32 4 4).mp hxSize.symm
    have h72 : ZeroRange mem 36 72 := h40.spread (by omega) (by omega)
      ((slice_eq_iff mem mem 40 36 32).mp hyRaw.symm)
    have h80 : ZeroRange mem 36 80 := h72.number (by omega) (by omega) hySize.symm
    have h112 : ZeroRange mem 36 112 := h80.spread (by omega) (by omega)
      ((slice_eq_iff mem mem 80 72 32).mp hvkX.symm)
    have h120 : ZeroRange mem 36 120 := h112.number (by omega) (by omega) hvkXSize.symm
    have h152 : ZeroRange mem 36 152 := h120.spread (by omega) (by omega)
      ((slice_eq_iff mem mem 120 108 32).mp hvkY.symm)
    have h160 : ZeroRange mem 36 160 := h152.number (by omega) (by omega) hvkYSize.symm
    have h224 : ZeroRange mem 36 224 := h160.spread (by omega) (by omega)
      ((slice_eq_iff mem mem 160 144 64).mp hsignature.symm)
    exact h224.spread (by omega) (by omega) ((slice_eq_iff mem mem 224 208 16).mp hmac.symm)
  · intro hzero
    have hnumber : ∀ a b width width', 36 ≤ a → a + width ≤ 240 → 36 ≤ b → b + width' ≤ 240 →
        leNat (slice mem a width) = leNat (slice mem b width') :=
      fun a b width width' ha ha' hb hb' => hzero.leNat_eq ha ha' hb hb'
    have hbytes : ∀ a b length, 36 ≤ a → a + length ≤ 240 → 36 ≤ b → b + length ≤ 240 →
        slice mem a length = slice mem b length :=
      fun a b length ha ha' hb hb' => hzero.slice_eq ha ha' hb hb'
    have hwide : leNat (slice mem 32 8) = leNat (slice mem 32 4) :=
      (leNat_widen 32 4 4).mpr fun i hlo hhi => hzero i (by omega) (by omega)
    exact ⟨hwide.symm, hbytes 36 40 32 (by omega) (by omega) (by omega) (by omega),
      hnumber 68 72 4 8 (by omega) (by omega) (by omega) (by omega),
      hbytes 72 80 32 (by omega) (by omega) (by omega) (by omega),
      hnumber 104 112 4 8 (by omega) (by omega) (by omega) (by omega),
      hbytes 108 120 32 (by omega) (by omega) (by omega) (by omega),
      hnumber 140 152 4 8 (by omega) (by omega) (by omega) (by omega),
      hbytes 144 160 64 (by omega) (by omega) (by omega) (by omega),
      hbytes 208 224 16 (by omega) (by omega) (by omega) (by omega)⟩

end Decoded

section Agrees

variable {mem : Mem} {rest : List UInt8}

-- A receiver that declares no more bytes than the sender reads the sender's memory.
theorem agrees_of_sizeof_le {sender receiver : List CType} (h : sizeof receiver ≤ sizeof sender) :
    Agrees sender receiver mem rest ↔ decode receiver mem = decode sender mem := by
  have hlong : ¬(image sender mem ++ rest).length < sizeof receiver := by
    simp only [image, List.length_append, slice_length]
    omega
  have hsame : decode receiver (ofList (image sender mem ++ rest)) = decode receiver mem :=
    decode_congr receiver fun i hi => ofList_slice_append mem _ rest (by omega)
  rw [Agrees, parse, if_neg hlong, hsame, Option.some_inj]

-- A receiver that declares more needs the buffer to go on behind the message.
theorem agrees_of_sizeof_lt {sender receiver : List CType} (extra : Nat)
    (h : sizeof receiver = sizeof sender + extra) :
    Agrees sender receiver mem rest ↔ extra ≤ rest.length ∧
      decode receiver (ofList (image sender mem ++ rest)) =
        decode sender (ofList (image sender mem ++ rest)) := by
  have hsame : decode sender (ofList (image sender mem ++ rest)) = decode sender mem :=
    decode_congr sender fun i hi => ofList_slice_append mem _ rest hi
  have hlen : (image sender mem ++ rest).length = sizeof sender + rest.length := by
    simp only [image, List.length_append, slice_length]
  rw [Agrees, parse, hsame, hlen]
  by_cases hshort : extra ≤ rest.length
  · rw [if_neg (by omega), Option.some_inj]
    exact ⟨fun heq => ⟨hshort, heq⟩, And.right⟩
  · rw [if_pos (by omega)]
    constructor
    · intro hnone
      cases hnone
    · rintro ⟨hlong, -⟩
      exact absurd hlong hshort

theorem agrees_msg0_iff : Agrees Attester.msg0 Verifier.msg0 mem rest ↔
    8 ≤ rest.length ∧ ZeroRange (ofList (image Attester.msg0 mem ++ rest)) 36 80 := by
  rw [agrees_of_sizeof_lt 8 (by decide), decode_msg0_eq_iff]

theorem agrees_msg1_iff :
    Agrees Verifier.msg1 Attester.msg1 mem rest ↔ ZeroRange mem 36 240 := by
  rw [agrees_of_sizeof_le (by decide), decode_msg1_eq_iff]

end Agrees

-- One run of the four messages: the structures as they lie in the sender's memory, what the
-- receiving buffer holds behind each, and the shape of `ra_quote`.
structure Exchange where
  raQuote : CType
  msg0 : Mem
  msg1 : Mem
  msg2 : Mem
  msg3 : Mem
  behind0 : List UInt8
  behind1 : List UInt8
  behind2 : List UInt8
  behind3 : List UInt8

def Exchange.Agrees (x : Exchange) : Prop :=
  Wire.Agrees Attester.msg0 Verifier.msg0 x.msg0 x.behind0 ∧
  Wire.Agrees Verifier.msg1 Attester.msg1 x.msg1 x.behind1 ∧
  Wire.Agrees (Attester.msg2 x.raQuote) (Verifier.msg2 x.raQuote) x.msg2 x.behind2 ∧
  Wire.Agrees Verifier.msg3 Attester.msg3 x.msg3 x.behind3

-- From byte 36 on, which is where the verifier's first size field has its upper half, both
-- keys and everything behind them are zero.
def Exchange.Blank (x : Exchange) : Prop :=
  8 ≤ x.behind0.length ∧ ZeroRange (ofList (image Attester.msg0 x.msg0 ++ x.behind0)) 36 80 ∧
    ZeroRange x.msg1 36 240

-- The second and the third message agree always, the first two only when they carry no key.
theorem exchange_agrees_iff (x : Exchange) : x.Agrees ↔ x.Blank := by
  have hmsg2 : Wire.Agrees (Attester.msg2 x.raQuote) (Verifier.msg2 x.raQuote) x.msg2 x.behind2 :=
    parse_image (Attester.msg2 x.raQuote) x.msg2 x.behind2
  have hmsg3 : Wire.Agrees Verifier.msg3 Attester.msg3 x.msg3 x.behind3 :=
    parse_image Verifier.msg3 x.msg3 x.behind3
  constructor
  · rintro ⟨h0, h1, -, -⟩
    obtain ⟨hlong, hzero⟩ := agrees_msg0_iff.mp h0
    exact ⟨hlong, hzero, agrees_msg1_iff.mp h1⟩
  · rintro ⟨hlong, hzero, h1⟩
    exact ⟨agrees_msg0_iff.mpr ⟨hlong, hzero⟩, agrees_msg1_iff.mpr h1, hmsg2, hmsg3⟩

-- An attester's `msg0` with two full coordinates in the buffer of a host whose secret has
-- sixteen bytes, and a verifier's `msg1` with four.
def fullMsg0 : Mem := fun i =>
  if i = 32 ∨ i = 68 then 32 else if 33 ≤ i ∧ i < 36 ∨ 69 ≤ i then 0 else 7

def fullMsg1 : Mem := fun i =>
  if i = 32 ∨ i = 72 ∨ i = 112 ∨ i = 152 then 32
  else if 33 ≤ i ∧ i < 40 ∨ 73 ≤ i ∧ i < 80 ∨ 113 ≤ i ∧ i < 120 ∨ 153 ≤ i ∧ i < 160 then 0 else 7

def fullExchange : Exchange where
  raQuote := .record 200 4
  msg0 := fullMsg0
  msg1 := fullMsg1
  msg2 := fun _ => 0
  msg3 := fun _ => 0
  behind0 := List.replicate 16 0
  behind1 := []
  behind2 := []
  behind3 := []

theorem fullExchange_disagrees :
    sizeof Attester.msg0 ≠ sizeof Verifier.msg0 ∧ sizeof Attester.msg1 ≠ sizeof Verifier.msg1 ∧
      offsets Attester.msg0 ≠ offsets Verifier.msg0 ∧
      offsets Attester.msg1 ≠ offsets Verifier.msg1 ∧
      ¬Wire.Agrees Attester.msg0 Verifier.msg0 fullExchange.msg0 fullExchange.behind0 ∧
      ¬Wire.Agrees Verifier.msg1 Attester.msg1 fullExchange.msg1 fullExchange.behind1 := by
  refine ⟨by decide, by decide, by decide, by decide, ?_, ?_⟩
  · intro h
    have hbyte := (agrees_msg0_iff.mp h).2 36 (by omega) (by omega)
    rw [image, ofList_slice_append _ _ _ (by decide)] at hbyte
    exact absurd hbyte (by decide)
  · intro h
    exact absurd (agrees_msg1_iff.mp h 40 (by omega) (by omega)) (by decide)

end Watz.Wire
