import Watz.Base.Symbolic
import Watz.Tee

namespace Watz.Idealised

open Base.Symbolic

-- The owners of private values. The attestation service has one signing key.
def attesterRole : Nat := 0
def verifierRole : Nat := 1
def attestationKey : Name := .honest 2 0

structure Quote where
  anchor : Term
  version : Term
  claimHash : Term
  attestationKey : Term
  signature : Term
  deriving DecidableEq

-- A buffer or a stream is the list of the fields it holds, and its length in bytes.
structure Buf where
  fields : List Term
  size : Nat
  deriving DecidableEq

def blank : Term := .const []

def Buf.field (b : Buf) (index : Nat) : Term := b.fields.getD index blank

-- The bytes of the pinned key in `verifier.h` are those of the attestation service.
def lit (bytes : List UInt8) : Term :=
  if bytes = RA_IMX_TEST_PUBLIC_KEY_X then .vkX attestationKey
  else if bytes = RA_IMX_TEST_PUBLIC_KEY_Y then .vkY attestationKey
  else .const bytes

-- A pair of coordinates that is no public key gives a value the attacker knows.
def ecdh (scalar : Name) : Term → Term → Option Term
  | .pubX a, .pubY b => some (if a = b then .dh s(scalar, a) else blank)
  | _, _ => some blank

def verify : Term → Term → Term → Term → Bool
  | .vkX a, .vkY b, digest, .sig key message => decide (a = key ∧ b = key ∧ message = digest)
  | _, _, _, _ => false

def gcmDecrypt (key iv : Term) : Term → Term → Option Term
  | .enc k i message, t =>
      if k = key ∧ i = iv ∧ t = .tag key iv message then some message else none
  | _, _ => none

-- Each coordinate is one opaque value, every primitive is perfect and ECDH commutes. The
-- sizes of the messages are those of the verifier's structures.
def prims : Prims where
  Coord := Term
  Val := Term
  Quote := Quote
  Buf := Buf
  Wire := Buf
  Ecdh := Name
  Ecdsa := Name
  decEqVal := inferInstance
  zeroCoord := blank
  zeroVal := blank
  zeroQuote := ⟨blank, blank, blank, blank, blank⟩
  lit := lit
  len _ := 0
  size _ := RA_ECDH_KEY_SIZE / 8
  resized c := c
  val c := c
  overrun c _ := c
  same c d := decide (c = d)
  copy c := c
  rawEq v c := decide (v = c)
  anchor := Quote.anchor
  version := Quote.version
  claimHash := Quote.claimHash
  attestationKey := Quote.attestationKey
  signature := Quote.signature
  quoteBytes q :=
    .tuple [q.anchor, q.version, q.claimHash, q.attestationKey, q.signature]
  bufSize := Buf.size
  bufVal b := b.field 0
  sizeofMsg0 := 80
  sizeofMsg1 := 240
  sizeofMsg2 := 296
  sizeofMsg3 := 56
  getMsg0 b := ⟨b.field 0, b.field 1⟩
  getMsg2 b := ⟨b.field 0, b.field 1,
    ⟨b.field 2, b.field 3, b.field 4, b.field 5, b.field 6⟩, b.field 7⟩
  putMsg1 m b := ⟨[m.ecdhX, m.ecdhY, m.ecdsaX, m.ecdsaY, m.ecdhSignature, m.mac], b.size⟩
  putMsg3 m b := ⟨[m.iv, m.tag, m.encryptedContent], b.size⟩
  recvMsg1 w :=
    if w.size < 224 then none
    else some ⟨w.field 0, w.field 1, w.field 2, w.field 3, w.field 4, w.field 5⟩
  recvMsg3 w _ := ⟨w.field 0, w.field 1, 0, w.field 2⟩
  recvCount3 w _ := w.size
  recvStores1 _ := []
  recvStores3 _ _ := []
  sha256 vs := .hash (.tuple vs)
  cmac k vs := .mac k (.tuple vs)
  pubX := .pubX
  pubY := .pubY
  exportX k _ := .pubX k
  exportY k _ := .pubY k
  ecdh := ecdh
  exportVerifyX k _ := .vkX k
  exportVerifyY k _ := .vkY k
  sign k _ d := .sig k d
  verify := verify
  gcmEncrypt k iv m := (.enc k iv m, .tag k iv m)
  gcmDecrypt := gcmDecrypt
  size_exportX _ _ := le_refl _
  size_exportY _ _ := le_refl _
  val_exportX _ _ := rfl
  val_exportY _ _ := rfl
  size_exportVerifyX _ _ := le_refl _
  size_exportVerifyY _ _ := le_refl _
  size_zeroCoord := le_refl _
  size_resized _ := le_refl _
  size_copy _ := rfl
  val_copy _ _ := rfl
  same_copy _ _ := by simp

-- An environment in which every call works.
def calm (ecdhKey ecdsaKey : Name) : Env prims where
  faults _ _ := none
  ecdhKey := ecdhKey
  ecdsaKey := ecdsaKey
  random := 0
  iv := blank
  wire := ⟨[], 0⟩
  adjacent _ := blank
  overCompare _ := false
  debug := false

end Watz.Idealised
